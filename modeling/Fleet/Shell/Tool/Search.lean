import Fleet.Shell.Regex
import Fleet.Shell.Tool

/-!
# Searching lines

The program that puts out the lines in which an expression has a part, or tells how many there are.
-/

namespace Fleet.Shell.Tool

open Text (Bytes)

/-- What lines are searched for. -/
structure Sought where
  /-- whether a line has what is looked for -/
  isIn : List Char → Bool
  /-- the parts of a line that are it -/
  parts : List Char → List (List Char)

/-- The parts of a text that an expression stands for, one after the other. -/
def foundParts (x : Regex.Field) (r : Regex) (isWhole : Nat → Nat → Bool) : Nat → Nat → List (List Char)
  | 0, _ => []
  | n + 1, start =>
    match x.find r start with
    | none => []
    | some (first, h) =>
      if h.position = first then foundParts x r isWhole n (first + 1)
      else if isWhole first h.position then
        (x.text.toList.drop first).take (h.position - first) :: foundParts x r isWhole n h.position
      else foundParts x r isWhole n (first + 1)

def soughtBy (folds inWords isWholeLine : Bool) (expressions : List Regex) : Sought :=
  let any := expressions.foldr (fun r rest => match rest with
    | some other => some (.either r other)
    | none => some r) none
  let r : Regex := any.getD (.set false [])
  let field := fun (line : List Char) => Regex.Field.mk line.toArray folds
  let isWord := fun (x : Regex.Field) (first last : Nat) => !x.isWordBefore first && !x.isWord last
  if isWholeLine then
    let whole : Regex := .then .textStart (.then (.group 0 r) .textEnd)
    ⟨fun line => ((field line).find whole 0).isSome, fun line => if ((field line).find whole 0).isSome then [line] else []⟩
  else if inWords then
    let parts := fun (line : List Char) =>
      let x := field line
      foundParts x r (isWord x) (line.length + 1) 0
    ⟨fun line => !(parts line).isEmpty, parts⟩
  else
    ⟨fun line => ((field line).find r 0).isSome,
      fun line => foundParts (field line) r (fun _ _ => true) (line.length + 1) 0⟩

/-- The files at and below a path, each with its path. -/
def filesBelow (d : Directory) (path : String) : List String :=
  match d.find (Octets.path path), d.node (Octets.path path) with
  | .ok target, .ok (.directory _) =>
    let found := (d.tree.below target.location).filter fun (_, node) => !node.isDirectory
    let start := if path.endsWith "/" then path else path ++ "/"
    found.map fun (l, _) => start ++ Octets.encode (String.intercalate "/" l)
  | _, _ => [path]

/-- How lines are told. -/
structure Telling where
  label : Option String
  hasNumber : Bool
  isQuiet : Bool
  onlyCount : Bool
  onlyName : Bool
  onlyParts : Bool
  isTurned : Bool
  most : Option Nat
  /-- how many lines before and behind a line are told too -/
  before : Nat
  behind : Nat

/-- How far the search of a file has come. -/
structure SearchState where
  number : Nat
  hits : Nat
  /-- the lines before this one that have not been told, the last one first -/
  held : List (Nat × List Char)
  /-- how many lines are told yet because of the last hit -/
  owed : Nat
  /-- the number of the last line that has been told -/
  told : Nat

def searchFile (t : Telling) (sought : Sought) (file : Nat) : Nat → SearchState → Action Nat
  | 0, x => return x.hits
  | n + 1, x => do
    if t.most.any (· ≤ x.hits) && x.owed = 0 then return x.hits
    let bytes ← collectLine file patience []
    if bytes.isEmpty then return x.hits
    let line := Octets.chars (bare bytes)
    let number := x.number + 1
    let tell := fun (mark : String) (number : Nat) (line : List Char) =>
      let label := match t.label with
        | some path => path ++ mark
        | none => ""
      say (label ++ (if t.hasNumber then toString number ++ mark else "") ++ String.ofList line ++ "\n")
    let isHit := sought.isIn line != t.isTurned && !t.most.any (· ≤ x.hits)
    if isHit then
      if t.isQuiet || t.onlyName then return x.hits + 1
      if !t.onlyCount then
        if t.onlyParts then
          if !t.isTurned then for part in sought.parts line do tell ":" number part
        else
          let held := (x.held.take t.before).reverse
          let firstTold := (held.head?.map (·.1)).getD number
          if 0 < t.before + t.behind ∧ 0 < x.told ∧ x.told + 1 < firstTold then say "--\n"
          for (number, line) in held do tell "-" number line
          tell ":" number line
      searchFile t sought file n ⟨number, x.hits + 1, [], t.behind, number⟩
    else if 0 < x.owed ∧ !t.onlyCount ∧ !t.onlyParts then
      tell "-" number line
      searchFile t sought file n { x with number, owed := x.owed - 1, told := number, held := [] }
    else searchFile t sought file n { x with number, held := ((number, line) :: x.held).take (max t.before 1), owed := 0 }

/-- The lines in which an expression has a part. -/
def grepWith (isExtended isFixed : Bool) : Program := fun name args => do
  let o : Options := ⟨"A:B:C:EFGHILPRUVabce:f:hilm:noqrsvwxyz", [("extended-regexp", 'E'), ("fixed-strings", 'F'),
    ("ignore-case", 'i'), ("invert-match", 'v'), ("count", 'c'), ("line-number", 'n'), ("quiet", 'q'), ("silent", 'q'),
    ("files-with-matches", 'l'), ("files-without-match", 'L'), ("only-matching", 'o'), ("word-regexp", 'w'),
    ("line-regexp", 'x'), ("regexp", 'e'), ("max-count", 'm'), ("no-filename", 'h'), ("with-filename", 'H'),
    ("no-messages", 's'), ("recursive", 'r'), ("after-context", 'A'), ("before-context", 'B'), ("context", 'C')], false, 2⟩
  let x ← o.of name args
  let fromFiles ← (x.values 'f').mapM fun path => do
    match ← input path with
    | .ok bytes => return textLines bytes
    | .error fault => abort name (unreadable path fault) 2
  let given := x.values 'e' ++ fromFiles.flatten
  let isGiven := x.hasAny ['e', 'f']
  if !isGiven && x.operands.isEmpty then
    warn ("Usage: " ++ name ++ " [OPTION]... PATTERNS [FILE]...")
    hint name
    quit 2
  let texts := if isGiven then given else (x.operands.headD "").toList.splitOn '\n' |>.map String.ofList
  let paths := if isGiven then x.operands else x.operands.tail
  let kind := x.last? ['E', 'F', 'G', 'P']
  let fixed := if kind.isSome then kind == some 'F' else isFixed
  let extended := if kind.isSome then kind == some 'E' || kind == some 'P' else isExtended
  let expressions ← texts.mapM fun text => do
    if fixed then return text.toList.foldr (fun c r => Regex.then (.char c) r) .empty
    else
      if Regex.isBareKind text.toList then abort name "character class syntax is [[:space:]], not [:space:]" 2
      match Regex.parse ⟨extended, false⟩ text.toList with
      | .ok found => do
        for sign in found.ignored do warn (name ++ ": warning: " ++ sign ++ " at start of expression")
        return found.expression
      | .error fault => abort name fault.message 2
  let sought := soughtBy (x.hasAny ['i', 'y']) (x.has 'w') (x.has 'x') expressions
  let isDeep := x.hasAny ['r', 'R']
  let d ← here
  let paths := if isDeep then (if paths.isEmpty then ["."] else paths).flatMap (filesBelow d)
    else if paths.isEmpty then ["-"] else paths
  let hasLabel := x.has 'H' || ((1 < paths.length || isDeep) && !x.has 'h')
  let context := fun (c : Char) => ((x.value? c <|> x.value? 'C').bind String.toNat?).getD 0
  let shown := fun (path : String) => if path = "-" then "(standard input)" else path
  let telling := fun (path : String) =>
    { label := if hasLabel then some (shown path) else none
      hasNumber := x.has 'n', isQuiet := x.has 'q', onlyCount := x.has 'c', onlyName := x.hasAny ['l', 'L']
      onlyParts := x.has 'o', isTurned := x.has 'v', most := (x.value? 'm').bind String.toNat?
      before := context 'B', behind := context 'A' : Telling }
  let mut found := false
  let mut failed := false
  for path in paths do
    match ← source path with
    | .ok file =>
      let t := telling path
      let hits ← withSource file (searchFile t sought file patience ⟨0, 0, [], 0, 0⟩)
      found := found || (0 < hits) != x.has 'L'
      if x.has 'q' && 0 < hits then quit 0
      if x.has 'L' then
        if hits = 0 then say (shown path ++ "\n")
      else if x.has 'l' then
        if 0 < hits then say (shown path ++ "\n")
      else if x.has 'c' && !x.has 'q' then
        say ((t.label.map (· ++ ":")).getD "" ++ toString hits ++ "\n")
    | .error fault =>
      failed := true
      if !x.has 's' then
        if fault = .isDirectory then warn (name ++ ": " ++ shown path ++ ": Is a directory")
        else if path = "-" then refuse name path "" fault
        else warn (name ++ ": " ++ unreadable path fault)
  finish (if failed then 2 else if found then 0 else 1)

/-- The lines in which a basic expression has a part. -/
def grep : Program := grepWith false false

/-- The lines in which an extended expression has a part. -/
def egrep : Program := grepWith true false

/-- The lines in which a text stands. -/
def fgrep : Program := grepWith false true

end Fleet.Shell.Tool
