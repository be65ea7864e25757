import Fleet.Shell.Regex

/-!
# Scripts for editing lines

A script is a list of steps, each with a guard that tells at which lines it is taken.  Reading a script gives its
steps, or what is wrong with it and where.
-/

namespace Fleet.Shell.Tool.Edit

/-! ### steps -/

/-- What an expression looks for; the empty expression looks for what has been looked for last. -/
structure Quest where
  expression : Option Regex
  folds : Bool
  deriving Inhabited

/-- Which lines a step begins with. -/
inductive Address where
  | line (number : Nat)
  | last
  /-- from a line on, each so many lines later -/
  | every (first step : Nat)
  | found (quest : Quest)
  deriving Inhabited

/-- Where the lines of a step end. -/
inductive Bound where
  | address (address : Address)
  /-- so many lines later -/
  | later (count : Nat)
  /-- at a line whose number is a multiple -/
  | multiple (count : Nat)
  deriving Inhabited

/-- At which lines a step is taken. -/
structure Guard where
  first : Option Address
  bound : Option Bound
  isTurned : Bool
  deriving Inhabited

/-- How the letters of a replacement are changed. -/
inductive Casing where
  | upper
  | lower
  | upperNext
  | lowerNext
  | plain
  deriving DecidableEq, Inhabited

/-- A part of a replacement. -/
inductive Part where
  | text (chars : List Char)
  | group (number : Nat)
  | casing (casing : Casing)
  deriving Inhabited

/-- How found text is replaced. -/
structure Substitution where
  quest : Quest
  parts : List Part
  /-- the first of the findings that is replaced -/
  first : Nat
  isGlobal : Bool
  isPrinted : Bool
  path : Option String
  deriving Inhabited

/-- What a step does. -/
inductive Deed where
  /-- the steps up to another one belong together -/
  | block (past : Nat)
  | close
  | label (name : String)
  | substitute (s : Substitution)
  | transliterate (pairs : List (Char × Char))
  | append (text : List Char)
  | insert (text : List Char)
  | change (text : List Char)
  | print
  | printFirst
  | delete
  | deleteFirst
  | next
  | join
  | hold
  | holdMore
  | recall
  | recallMore
  | exchange
  | empty
  | number
  | shown (width : Option Nat)
  | name
  | quit (code : Nat)
  | leave (code : Nat)
  | readFile (path : String)
  | readLine (path : String)
  | writeFile (path : String)
  | writeFirst (path : String)
  | jump (label : String)
  | jumpIfReplaced (label : String)
  | jumpUnlessReplaced (label : String)
  deriving Inhabited

/-- A step of a script. -/
structure Step where
  guard : Guard
  deed : Deed
  deriving Inhabited

/-! ### reading -/

/-- Where the reading of a script has come. -/
structure Place where
  rest : List Char
  /-- how many characters have been read -/
  count : Nat
  /-- how many blocks are open -/
  depth : Nat
  /-- the script asks that lines are not put out by themselves -/
  isQuiet : Bool

/-- What is wrong with a script. -/
structure Flaw where
  /-- how many characters have been read, if that is told -/
  count : Option Nat
  text : String
  status : Nat

abbrev Reading := StateT Place (Except Flaw)

def refuse {α : Type} (text : String) : Reading α := do throw ⟨some (← get).count, text, 1⟩

def take? : Reading (Option Char) := modifyGet fun x =>
  match x.rest with
  | [] => (none, x)
  | c :: rest => (some c, { x with rest, count := x.count + 1 })

/-- The next character, which is not passed over. -/
def peek? : Reading (Option Char) := return (← get).rest.head?

/-- The next characters that are of a kind. -/
def takeWhile (isOne : Char → Bool) : Reading (List Char) := modifyGet fun x =>
  let (found, rest) := x.rest.span isOne
  (found, { x with rest, count := x.count + found.length })

def skipBlanks : Reading Unit := do
  let _ ← takeWhile fun c => c == ' ' || c == '\t'

/-- Whether a character is a blank or ends a line. -/
def isSpace (c : Char) : Bool := c ∈ [' ', '\t', '\n', '\r', '\x0b', '\x0c']

def number : Reading Nat := do return ((String.ofList (← takeWhile Char.isDigit)).toNat?).getD 0

def endOfStep : Reading Unit := do
  skipBlanks
  match ← peek? with
  | none | some '\x7d' | some '#' => pure ()
  | some c =>
    let _ ← take?
    if c ≠ '\n' ∧ c ≠ ';' then refuse "extra characters after command"

/-- How many characters a set takes, after its opening bracket. -/
def setLength (s : List Char) : Nat :=
  let start := match s with
    | '^' :: ']' :: _ => 2
    | '^' :: _ | ']' :: _ => 1
    | _ => 0
  start + inner (s.length + 1) (s.drop start)
where
  /-- The members of a set and the bracket that closes it. -/
  inner : Nat → List Char → Nat
    | 0, _ | _, [] => 0
    | _ + 1, ']' :: _ => 1
    | n + 1, '[' :: c :: rest =>
      if c = ':' ∨ c = '.' ∨ c = '=' then
        match Regex.named c rest with
        | some (name, more) => name.length + 4 + inner n more
        | none => 2 + inner n rest
      else 1 + inner n (c :: rest)
    | n + 1, _ :: rest => 1 + inner n rest

/-- The text up to a delimiter, which is passed over; backslashes fix characters, and so do the brackets of sets.  In an
expression a fixed delimiter stands for itself, and `\n` for the end of a line. -/
def delimited (delimiter : Char) (isExpression : Bool) : Nat → List Char → Reading (Option (List Char))
  | 0, _ => return none
  | n + 1, found => do
    match ← peek? with
    | none | some '\n' => return none
    | some c =>
      let _ ← take?
      if c = delimiter then return some found.reverse
      else if c = '[' ∧ isExpression then
        let rest := (← get).rest
        let size := setLength rest
        let inside := rest.take size
        modify fun x => { x with rest := rest.drop size, count := x.count + size }
        if '\n' ∈ inside then return none
        else delimited delimiter isExpression n (inside.reverse ++ '[' :: found)
      else if c = '\\' then
        match ← take? with
        | none => return none
        | some '\n' => delimited delimiter isExpression n ('\n' :: if isExpression then found else '\\' :: found)
        | some d =>
          if d = 'n' ∧ isExpression ∧ delimiter ≠ 'n' then delimited delimiter isExpression n ('\n' :: found)
          else if d = delimiter ∧ !(d = '&' ∧ !isExpression) then delimited delimiter isExpression n (d :: found)
          else delimited delimiter isExpression n (d :: '\\' :: found)
      else delimited delimiter isExpression n (c :: found)

/-- The value of a digit in a base up to sixteen. -/
def digit? (base : Nat) (c : Char) : Option Nat :=
  let value := if c.isDigit then some (c.toNat - '0'.toNat)
    else if 'a' ≤ c ∧ c ≤ 'f' then some (c.toNat - 'a'.toNat + 10)
    else if 'A' ≤ c ∧ c ≤ 'F' then some (c.toNat - 'A'.toNat + 10)
    else none
  value.filter (· < base)

/-- The character that a letter after a backslash stands for, and the characters after it. -/
def special? : List Char → Option (Char × List Char)
  | 'a' :: rest => some ('\x07', rest)
  | 'f' :: rest => some ('\x0c', rest)
  | 'n' :: rest => some ('\n', rest)
  | 'r' :: rest => some ('\r', rest)
  | 't' :: rest => some ('\t', rest)
  | 'v' :: rest => some ('\x0b', rest)
  | 'c' :: c :: rest => some (Char.ofNat (c.toUpper.toNat ^^^ 64), rest)
  | 'd' :: rest => coded 10 3 rest
  | 'o' :: rest => coded 8 3 rest
  | 'x' :: rest => coded 16 2 rest
  | _ => none
where
  /-- A character by its code. -/
  coded (base width : Nat) (rest : List Char) : Option (Char × List Char) :=
    let digits := (rest.take width).takeWhile fun c => (digit? base c).isSome
    if digits = [] then none
    else
      let value := digits.foldl (fun n c => n * base + (digit? base c).getD 0) 0
      some (Char.ofNat (value % 256), rest.drop digits.length)

/-- An expression with the characters that letters after backslashes stand for. -/
def unescaped : Nat → List Char → List Char
  | 0, s => s
  | _ + 1, [] => []
  | n + 1, '\\' :: rest =>
    match special? rest with
    | some (c, rest) => c :: unescaped n rest
    | none =>
      match rest with
      | c :: rest => '\\' :: c :: unescaped n rest
      | [] => ['\\']
  | n + 1, c :: rest => c :: unescaped n rest

/-- What an expression looks for, with the number of its groups. -/
def questOf (isExtended folds : Bool) (text : List Char) : Reading (Quest × Nat) := do
  if text = [] then return (⟨none, folds⟩, 9)
  if Regex.isBareKind text then throw ⟨none, "character class syntax is [[:space:]], not [:space:]", 4⟩
  match Regex.parse ⟨isExtended, true⟩ (unescaped (text.length + 1) text) with
  | .ok found => return (⟨some found.expression, folds⟩, found.groups)
  | .error fault => refuse fault.message

def address? (isExtended : Bool) : Reading (Option Address) := do
  match ← peek? with
  | some '$' => do
    let _ ← take?
    return some .last
  | some c =>
    if c.isDigit then
      let first ← number
      skipBlanks
      match ← peek? with
      | some '~' => do
        let _ ← take?
        skipBlanks
        let step ← number
        return some (if step = 0 then .line first else .every first step)
      | _ => return some (.line first)
    else if c = '/' ∨ c = '\\' then
      let _ ← take?
      let delimiter ← if c = '\\' then take? else pure (some c)
      match ← delimited (delimiter.getD '/') true ((← get).rest.length + 1) [] with
      | none => refuse "unterminated address regex"
      | some text =>
        skipBlanks
        let marks ← takeWhile (· ∈ ['I', 'M'])
        let (quest, _) ← questOf isExtended ('I' ∈ marks) text
        return some (.found quest)
    else return none
  | none => return none

/-- The end of the lines of a step. -/
def bound? (isExtended : Bool) : Reading (Option Bound) := do
  match ← peek? with
  | some '+' => do
    let _ ← take?
    return some (.later (← number))
  | some '~' => do
    let _ ← take?
    return some (.multiple (← number))
  | _ => return (← address? isExtended).map .address

def partsOf : Nat → List Char → List Part
  | 0, _ | _, [] => []
  | n + 1, '&' :: rest => .group 0 :: partsOf n rest
  | n + 1, '\\' :: c :: rest =>
    if c.isDigit then .group (c.toNat - '0'.toNat) :: partsOf n rest
    else
      match c with
      | 'U' => .casing .upper :: partsOf n rest
      | 'L' => .casing .lower :: partsOf n rest
      | 'u' => .casing .upperNext :: partsOf n rest
      | 'l' => .casing .lowerNext :: partsOf n rest
      | 'E' => .casing .plain :: partsOf n rest
      | c =>
        match special? (c :: rest) with
        | some (c, rest) => .text [c] :: partsOf n rest
        | none => .text [c] :: partsOf n rest
  | n + 1, c :: rest => .text [c] :: partsOf n rest

/-- The path to the end of the line. -/
def path : Reading String := do
  skipBlanks
  let found ← takeWhile (· ≠ '\n')
  if found = [] then refuse "missing filename in r/R/w/W commands"
  return String.ofList found

def flags : Nat → Substitution → Reading Substitution
  | 0, s => return s
  | n + 1, s => do
    match ← peek? with
    | none | some '\x7d' | some '#' => return s
    | some c =>
      if c.isDigit then
        if 0 < s.first then
          let _ ← take?
          refuse "multiple number options to \x60s' command"
        let first ← number
        if first = 0 then refuse "number option to \x60s' command may not be zero"
        flags n { s with first }
      else
        let _ ← take?
        match c with
        | '\n' | ';' => return s
        | ' ' | '\t' | '\r' => flags n s
        | 'i' | 'I' => flags n { s with quest := { s.quest with folds := true } }
        | 'm' | 'M' => flags n s
        | 'p' => if s.isPrinted then refuse "multiple \x60p' options to \x60s' command" else flags n { s with isPrinted := true }
        | 'g' => if s.isGlobal then refuse "multiple \x60g' options to \x60s' command" else flags n { s with isGlobal := true }
        | 'w' => do return { s with path := some (← path) }
        | _ => refuse "unknown option to \x60s'"

def substitution (isExtended : Bool) : Reading Deed := do
  let broken : Reading Deed := refuse "unterminated \x60s' command"
  match ← take? with
  | none => broken
  | some delimiter =>
    let size := (← get).rest.length + 1
    match ← delimited delimiter true size [] with
    | none => broken
    | some expression =>
      match ← delimited delimiter false size [] with
      | none => broken
      | some replacement =>
        let parts := partsOf (replacement.length + 1) replacement
        let s ← flags size ⟨⟨none, false⟩, parts, 0, false, false, none⟩
        let (quest, groups) ← questOf isExtended s.quest.folds expression
        let highest := (parts.map fun part => match part with
          | .group number => number
          | _ => 0).max?.getD 0
        if groups < highest then refuse ("invalid reference \\" ++ toString highest ++ " on \x60s' command's RHS")
        return .substitute { s with quest, first := max 1 s.first }

/-- The characters of one side of a transliteration. -/
def plainChars : Nat → List Char → List Char
  | 0, _ | _, [] => []
  | n + 1, '\\' :: '\\' :: rest => '\\' :: plainChars n rest
  | n + 1, '\\' :: rest =>
    match special? rest with
    | some (c, rest) => c :: plainChars n rest
    | none =>
      match rest with
      | '\n' :: rest => '\n' :: plainChars n rest
      | rest => '\\' :: plainChars n rest
  | n + 1, c :: rest => c :: plainChars n rest

def transliteration : Reading Deed := do
  let broken : Reading Deed := refuse "unterminated \x60y' command"
  match ← take? with
  | none => broken
  | some delimiter =>
    let size := (← get).rest.length + 1
    match ← delimited delimiter false size [] with
    | none => broken
    | some old =>
      match ← delimited delimiter false size [] with
      | none => broken
      | some new =>
        let old := plainChars (old.length + 1) old
        let new := plainChars (new.length + 1) new
        if old.length ≠ new.length then refuse "strings for \x60y' command are different lengths"
        endOfStep
        return .transliterate (old.zip new)

/-- The lines of a text that a step puts out: backslashes fix characters and the ends of lines. -/
def textLines : Nat → List Char → Reading (List Char)
  | 0, found => return found.reverse
  | n + 1, found => do
    match ← take? with
    | none | some '\n' => return ('\n' :: found).reverse
    | some '\\' =>
      match special? (← get).rest with
      | some (c, rest) => do
        modify fun x => { x with rest, count := x.count + (x.rest.length - rest.length) }
        textLines n (c :: found)
      | none =>
        match ← take? with
        | none => return ('\n' :: found).reverse
        | some c => textLines n (c :: found)
    | some c => textLines n (c :: found)

/-- The text of a step, after its letter. -/
def text : Reading (List Char) := do
  skipBlanks
  match ← peek? with
  | none => refuse "expected \\ after \x60a', \x60c' or \x60i'"
  | some '\\' => do
    let _ ← take?
    match ← peek? with
    | none => return []
    | some c =>
      if c = '\n' then
        let _ ← take?
      textLines ((← get).rest.length + 2) []
  | some _ => textLines ((← get).rest.length + 2) []

def labelName : Reading String := do
  skipBlanks
  return String.ofList (← takeWhile fun c => !isSpace c && c != ';')

def jumpLabel : Reading String := do
  skipBlanks
  let name ← takeWhile fun c => !isSpace c && c != ';' && c != '\x7d'
  endOfStep
  return String.ofList name

/-- A number behind a step, if there is one. -/
def optionalNumber : Reading Nat := do
  skipBlanks
  let n ← number
  endOfStep
  return n

def plainDeeds : List (Char × Deed) :=
  [('=', .number), ('d', .delete), ('D', .deleteFirst), ('F', .name), ('g', .recall), ('G', .recallMore), ('h', .hold),
    ('H', .holdMore), ('n', .next), ('N', .join), ('p', .print), ('P', .printFirst), ('z', .empty), ('x', .exchange)]

/-- The deed of a step by its letter, which has been read. -/
def deed (isExtended : Bool) (letter : Char) : Reading Deed := do
  match plainDeeds.lookup letter with
  | some found => do
    endOfStep
    return found
  | none =>
    match letter with
    | '\x7b' => do
      modify fun x => { x with depth := x.depth + 1 }
      return .block 0
    | '\x7d' => do
      if (← get).depth = 0 then refuse "unexpected \x60\x7d'"
      modify fun x => { x with depth := x.depth - 1 }
      endOfStep
      return .close
    | ':' => do
      let name ← labelName
      if name = "" then refuse "\":\" lacks a label"
      return .label name
    | 's' => substitution isExtended
    | 'y' => transliteration
    | 'a' => return .append (← text)
    | 'i' => return .insert (← text)
    | 'c' => return .change (← text)
    | 'l' => do
      skipBlanks
      let digits ← takeWhile Char.isDigit
      endOfStep
      return .shown (String.ofList digits).toNat?
    | 'v' => do
      let _ ← takeWhile fun c => c != '\n' && c != ';'
      return .close
    | 'q' => return .quit (← optionalNumber)
    | 'Q' => return .leave (← optionalNumber)
    | 'r' => return .readFile (← path)
    | 'R' => return .readLine (← path)
    | 'w' => return .writeFile (← path)
    | 'W' => return .writeFirst (← path)
    | 'b' => return .jump (← jumpLabel)
    | 't' => return .jumpIfReplaced (← jumpLabel)
    | 'T' => return .jumpUnlessReplaced (← jumpLabel)
    | letter => refuse ("unknown command: \x60" ++ String.singleton letter ++ "'")

def guard (isExtended : Bool) : Reading Guard := do
  let first ← address? isExtended
  skipBlanks
  let bound ← match first, ← peek? with
    | some _, some ',' => do
      let _ ← take?
      skipBlanks
      match ← bound? isExtended with
      | none =>
        let _ ← take?
        refuse "unexpected \x60,'"
      | some bound => do
        skipBlanks
        pure (some bound)
    | _, _ => pure none
  let isSearch := match bound with
    | some (.address (.found _)) => true
    | _ => false
  if let some (.line 0) := first then
    if !isSearch then
      let _ ← take?
      refuse "invalid usage of line address 0"
  match ← peek? with
  | some '!' => do
    let _ ← take?
    skipBlanks
    if (← peek?) = some '!' then
      let _ ← take?
      refuse "multiple \x60!'s"
    return ⟨first, bound, true⟩
  | _ => return ⟨first, bound, false⟩

/-- The steps of a script.  One that begins with `#n` asks that lines are not put out by themselves. -/
def steps (isExtended isFirst : Bool) : Nat → List Step → Reading (List Step)
  | 0, found => return found.reverse
  | n + 1, found => do
    let _ ← takeWhile fun c => isSpace c || c == ';'
    match ← peek? with
    | none => return found.reverse
    | some _ =>
      let g ← guard isExtended
      match ← take? with
      | none => refuse "missing command"
      | some '#' => do
        if g.first.isSome then refuse "comments don't accept any addresses"
        let isStart := (← get).count = 1
        let words ← takeWhile (· ≠ '\n')
        if isStart ∧ isFirst ∧ words = ['n'] then modify fun x => { x with isQuiet := true }
        steps isExtended isFirst n found
      | some letter => do
        if letter = '\x7d' ∧ g.first.isSome ∧ 0 < (← get).depth then refuse "\x7d doesn't want any addresses"
        if letter = ':' ∧ g.first.isSome then refuse ": doesn't want any addresses"
        let d ← deed isExtended letter
        steps isExtended isFirst n (⟨g, d⟩ :: found)

/-! ### whole scripts -/

/-- A piece of a script: how messages name it, and its text. -/
structure Piece where
  place : Nat → String
  text : List Char

/-- The steps of the pieces of a script, and whether lines are not put out by themselves; or a message and the exit
status. -/
def pieces (isExtended : Bool) : List Piece → Bool → Nat → List Step → Bool → Except (String × Nat) (List Step × Bool)
  | [], _, depth, found, isQuiet =>
    if 0 < depth then .error ("-e expression #1, char 0: unmatched \x60\x7b'", 1) else .ok (found, isQuiet)
  | piece :: rest, isFirst, depth, found, isQuiet =>
    match (steps isExtended isFirst (piece.text.length + 1) []).run ⟨piece.text, 0, depth, isQuiet⟩ with
    | .error flaw => .error ((flaw.count.map piece.place).getD "" ++ flaw.text, flaw.status)
    | .ok (more, x) => pieces isExtended rest false x.depth (found ++ more) x.isQuiet

/-- The steps with the ends of their blocks. -/
def closed (all : List Step) : List Step :=
  all.zipIdx.map fun (step, i) =>
    match step.deed with
    | .block _ => { step with deed := .block (i + 1 + span (all.drop (i + 1)) 0) }
    | _ => step
where
  /-- How many steps there are up to the end of a block. -/
  span : List Step → Nat → Nat
    | [], _ => 0
    | step :: rest, depth =>
      match step.deed with
      | .block _ => 1 + span rest (depth + 1)
      | .close => if depth = 0 then 0 else 1 + span rest (depth - 1)
      | _ => 1 + span rest depth

/-- The place of a label; an empty label is the end. -/
def target (all : List Step) (name : String) : Option Nat :=
  if name = "" then some all.length
  else all.findIdx? fun step =>
    match step.deed with
    | .label other => name == other
    | _ => false

/-- A label that a step jumps to and that is nowhere. -/
def lostLabel? (all : List Step) : Option String :=
  all.findSome? fun step =>
    match step.deed with
    | .jump name | .jumpIfReplaced name | .jumpUnlessReplaced name => if (target all name).isNone then some name else none
    | _ => none

/-- The script that its pieces make, and whether lines are not put out by themselves; or a message and the exit
status. -/
def script (isExtended : Bool) (all : List Piece) : Except (String × Nat) (List Step × Bool) :=
  match pieces isExtended all true 0 [] false with
  | .error fault => .error fault
  | .ok (found, isQuiet) =>
    match lostLabel? found with
    | some name => .error ("can't find label for jump to \x60" ++ name ++ "'", 4)
    | none => .ok (closed found, isQuiet)

end Fleet.Shell.Tool.Edit
