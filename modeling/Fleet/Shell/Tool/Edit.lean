import Fleet.Shell.Tool.Edit.Script
import Fleet.Shell.Tool.Line

/-!
# Editing lines

The program that takes the steps of a script at each line of its input: lines are changed, left out and put out,
and others are put between them.
-/

namespace Fleet.Shell.Tool

open Text (Bytes)

namespace Edit

/-! ### what is edited -/

/-- Where lines are put out. -/
inductive Sink where
  | output
  | file (number : Nat)
  deriving DecidableEq, Inhabited

/-- A line. -/
structure Line where
  chars : List Char
  /-- the last line of a file may have no end -/
  isEnded : Bool
  deriving Inhabited

namespace Line

/-- A line with another one behind it. -/
def join (delimiter : Char) (a b : Line) : Line := ⟨a.chars ++ delimiter :: b.chars, b.isEnded⟩

/-- What a line holds up to the first end of a line in it, if there is one, as a line of its own. -/
def first (delimiter : Char) (a : Line) : Line :=
  if delimiter ∈ a.chars then ⟨a.chars.takeWhile (· ≠ delimiter), true⟩ else a

end Line

/-- What is put out after a line. -/
inductive Follow where
  | text (chars : List Char)
  | file (path : String)
  deriving Inhabited

/-- How an editor is called. -/
structure Manner where
  steps : Array Step
  isQuiet : Bool
  /-- each file has its own first and last line -/
  isSeparate : Bool
  /-- what is put out takes the place of the file, a copy of which may be kept under its name with an ending -/
  inPlace : Option String
  /-- what ends a line -/
  delimiter : Char
  /-- how long the lines of a text that is shown may be -/
  width : Nat
  /-- the open files that lines are written to, by their paths -/
  sinks : List (String × Sink)

/-- An editor at work. -/
structure Editor where
  space : Line
  held : Line
  number : Nat
  /-- something has been replaced since the last line was read -/
  isReplaced : Bool
  /-- what has been looked for last -/
  last : Option Regex
  /-- the steps that go on at further lines, each with the line at which it ends -/
  running : List (Nat × Option Nat)
  follows : List Follow
  /-- the files from which single lines are read, and what is left of each -/
  sources : List (String × List Bytes)
  /-- the paths that are still to be read -/
  paths : List String
  /-- the path and the open file that is read -/
  current : Option (String × Nat)
  /-- the line after this one -/
  ahead : Option Bytes
  /-- the sinks whose last line has no end -/
  unended : List Sink
  /-- what takes the place of the file that is read -/
  gathered : Bytes
  deriving Inhabited

abbrev Editing := StateT Editor Action

/-! ### output -/

def putRaw (m : Manner) (sink : Sink) (bytes : Bytes) : Editing Unit := do
  match sink with
  | .output =>
    if m.inPlace.isSome then modify fun e => { e with gathered := e.gathered ++ bytes }
    else emit bytes
  | .file number => do
    let _ ← deposit number patience bytes

/-- A line whose end is missing gets it. -/
def endLine (m : Manner) (sink : Sink) : Editing Unit := do
  if sink ∈ (← get).unended then
    putRaw m sink (Octets.bytesOf [m.delimiter])
    modify fun e => { e with unended := e.unended.filter (· ≠ sink) }

def putText (m : Manner) (sink : Sink) (chars : List Char) : Editing Unit := do
  endLine m sink
  putRaw m sink (Octets.bytesOf chars)

def putLine (m : Manner) (sink : Sink) (line : Line) : Editing Unit := do
  if line.isEnded then putText m sink (line.chars ++ [m.delimiter])
  else
    putText m sink line.chars
    modify fun e => { e with unended := sink :: e.unended }

/-- What is put out after the line is put out. -/
def putFollows (m : Manner) : Editing Unit := do
  for follow in (← get).follows do
    match follow with
    | .text chars => putText m .output chars
    | .file path =>
      match ← input path with
      | .ok bytes => do
        endLine m .output
        putRaw m .output bytes
      | .error _ => pure ()
  modify fun e => { e with follows := [] }

/-! ### input -/

/-- A line is read from an open file, with its end if it has one. -/
def lineFrom (m : Manner) (file : Nat) : Action Bytes := do
  if m.delimiter = '\n' then collectLine file patience []
  else do
    let all ← collectAll file patience []
    return all

/-- The file that has been read is closed; what has been gathered takes its place. -/
def closeFile (m : Manner) : Editing Unit := do
  let e ← get
  if let some (path, _) := e.current then
    if let some ending := m.inPlace then
      let d ← here
      if let .ok target := d.find (Octets.path path) then
        let tree := d.tree
        if ending ≠ "" then
          let kept := if ending.contains '*' then ending.replace "*" (path.splitOn "/" |>.getLastD path) else path ++ ending
          if let .ok other := d.find (Octets.path kept) then
            if let some node := tree.at? target.location then
              setTree (tree.put other.location node)
        let node? := tree.at? target.location
        setTree ((← here).tree.put target.location (.holding e.gathered node?))
    modify fun e => { e with current := none, gathered := [], unended := e.unended.filter (· ≠ .output) }

/-- The next file is opened.  The answer says whether there is one. -/
def openNext (m : Manner) (name : String) : Nat → Editing Bool
  | 0 => return false
  | n + 1 => do
    closeFile m
    match (← get).paths with
    | [] => return false
    | path :: rest => do
      modify fun e => { e with paths := rest }
      match ← source path with
      | .ok file => do
        if m.isSeparate then modify fun e => { e with number := 0 }
        modify fun e => { e with current := some (path, file) }
        return true
      | .error fault => do
        let isOpen := path = "-" || fault = .isDirectory
        let text :=
          if isOpen && m.inPlace.isSome then "couldn't edit " ++ path ++ ": not a regular file"
          else if isOpen then "read error on " ++ (if path = "-" then "stdin" else path) ++ ": " ++ reason fault
          else "can't read " ++ path ++ ": " ++ reason fault
        let _ ← put 2 (Octets.bytes (name ++ ": " ++ text ++ "\n"))
        if isOpen then quit (α := Bool) 4
        else do
          finish 2
          openNext m name n

/-- The next line, if there is one; the end of a file ends the input if its lines are for themselves. -/
def fetch (m : Manner) (name : String) (acrossFiles : Bool) : Nat → Editing (Option Bytes)
  | 0 => return none
  | n + 1 => do
    match (← get).current with
    | none =>
      if acrossFiles then
        if ← openNext m name ((← get).paths.length + 1) then fetch m name acrossFiles n else return none
      else return none
    | some (_, file) => do
      let line ← lineFrom m file
      if line.isEmpty then
        if acrossFiles then
          closeFile m
          modify fun e => { e with current := none }
          fetch m name acrossFiles n
        else return none
      else return some line

/-- The line after this one is looked at, if it has not been. -/
def lookAhead (m : Manner) (name : String) : Editing (Option Bytes) := do
  match (← get).ahead with
  | some line => return some line
  | none => do
    let line ← fetch m name (!m.isSeparate) (2 * (← get).paths.length + 4)
    modify fun e => { e with ahead := line }
    return line

def isLast (m : Manner) (name : String) : Editing Bool := return (← lookAhead m name).isNone

/-- The next line is read, after what is put out behind this one.  The answer is the line, if there is one. -/
def advance (m : Manner) (name : String) : Editing (Option Line) := do
  putFollows m
  let line? ← match ← lookAhead m name with
    | some line => pure (some line)
    | none => if m.isSeparate then fetch m name true (2 * (← get).paths.length + 4) else pure none
  modify fun e => { e with ahead := none, isReplaced := false }
  match line? with
  | none => return none
  | some line => do
    let chars := Octets.chars line
    let isEnded := chars.getLast? == some m.delimiter
    modify fun e => { e with number := e.number + 1 }
    return some ⟨if isEnded then chars.dropLast else chars, isEnded⟩

/-! ### guards -/

def expressionOf (name : String) (q : Quest) : Editing Regex := do
  match q.expression with
  | some r => do
    modify fun e => { e with last := some r }
    return r
  | none =>
    match (← get).last with
    | some r => return r
    | none => abort name "-e expression #1, char 0: no previous regular expression" 1

def isAt (m : Manner) (name : String) : Address → Editing Bool
  | .line n => return (← get).number = n
  | .last => isLast m name
  | .every first step => do
    let n := (← get).number
    return first ≤ n && (n - first) % step = 0
  | .found q => do
    let r ← expressionOf name q
    return r.isIn q.folds (← get).space.chars

/-- Whether a step that has begun at this line goes on at further lines, and where it ends. -/
def beginning (number : Nat) : Bound → Option (Option Nat)
  | .later 0 => none
  | .later n => some (some (number + n))
  | .multiple n => if n = 0 then none else some (some (number + (n - number % n)))
  | .address (.line n) => if n ≤ number then none else some (some n)
  | .address _ => some none

/-- Whether a step is taken at this line. -/
def isTaken (m : Manner) (name : String) (index : Nat) (g : Guard) : Editing Bool := do
  let found ← match g.first, g.bound with
    | none, _ => pure true
    | some a, none => isAt m name a
    | some a, some bound => do
      let e ← get
      let n := e.number
      let stop : Editing Unit := modify fun e => { e with running := e.running.filter (·.1 ≠ index) }
      let start : Editing Bool := do
        if ← isAt m name a then
          if let some goal := beginning n bound then modify fun e => { e with running := (index, goal) :: e.running }
          return true
        else return false
      match e.running.lookup index with
      | some (some goal) =>
        if n < goal then pure true
        else do
          stop
          if n = goal then pure true else start
      | some none => do
        match bound with
        | .address other => if ← isAt m name other then stop
        | _ => pure ()
        pure true
      | none => start
  return found != g.isTurned

/-! ### replacing -/

/-- The letters of a text in another casing. -/
def cased (casing : Casing) (once : Option Casing) (chars : List Char) : List Char :=
  let all := match casing with
    | .upper => chars.map Char.toUpper
    | .lower => chars.map Char.toLower
    | _ => chars
  match once, all with
  | some .upperNext, c :: rest => c.toUpper :: rest
  | some .lowerNext, c :: rest => c.toLower :: rest
  | _, all => all

/-- What a replacement gives for a finding. -/
def replacement (text : Array Char) (start : Nat) (h : Regex.Hit) (parts : List Part) : List Char :=
  let slice := fun (a b : Nat) => (text.toList.drop a).take (b - a)
  let step := fun (state : Casing × Option Casing × List (List Char)) (part : Part) =>
    let (casing, once, out) := state
    let add := fun (chars : List Char) =>
      (casing, if chars = [] then once else none, cased casing once chars :: out)
    match part with
    | .casing .plain => (.plain, none, out)
    | .casing .upperNext => (casing, some .upperNext, out)
    | .casing .lowerNext => (casing, some .lowerNext, out)
    | .casing other => (other, none, out)
    | .text chars => add chars
    | .group 0 => add (slice start h.position)
    | .group n =>
      match h.groups.lookup n with
      | some (a, b) => add (slice a b)
      | none => (casing, once, out)
  (parts.foldl step (.plain, none, [])).2.2.reverse.flatten

/-- A text with findings replaced from a place on: the pieces, the last one first, and whether something has been
replaced. -/
def replaced (x : Regex.Field) (r : Regex) (s : Substitution) :
    Nat → Nat → Nat → Option Nat → List (List Char) → Bool → List (List Char) × Bool
  | 0, _, _, _, out, found => (out, found)
  | n + 1, start, count, before, out, found =>
    let slice := fun (a b : Nat) => (x.text.toList.drop a).take (b - a)
    let rest := fun (a : Nat) => slice a x.text.size
    match x.find r start with
    | none => (rest start :: out, found)
    | some (first, h) =>
      if h.position = first ∧ before = some first then
        if x.text.size ≤ first then (rest start :: out, found)
        else replaced x r s n (first + 1) count none (slice start (first + 1) :: out) found
      else
        let count := count + 1
        let isHit := if s.isGlobal then s.first ≤ count else s.first = count
        let middle := if isHit then replacement x.text first h s.parts else slice first h.position
        let out := middle :: slice start first :: out
        if isHit ∧ !s.isGlobal then (rest h.position :: out, true)
        else if h.position = first then
          if x.text.size ≤ first then (out, found || isHit)
          else replaced x r s n (first + 1) count none (slice first (first + 1) :: out) (found || isHit)
        else replaced x r s n h.position count (some h.position) out (found || isHit)

/-! ### steps -/

/-- How the steps at a line end. -/
inductive Outcome where
  /-- the next line comes; this one is put out, or not -/
  | done (isPut : Bool)
  /-- the steps begin anew with what is left of the line -/
  | again
  | quit (code : Nat) (isPut : Bool)

/-- A text as it is shown, in lines that are not too long. -/
def shownLines (greatest : Nat) (chars : List Char) : List Char :=
  let sign := fun (c : Char) =>
    match c with
    | '\\' => ['\\', '\\']
    | '\x07' => ['\\', 'a']
    | '\x08' => ['\\', 'b']
    | '\x0c' => ['\\', 'f']
    | '\n' => ['\\', 'n']
    | '\r' => ['\\', 'r']
    | '\t' => ['\\', 't']
    | '\x0b' => ['\\', 'v']
    | c =>
      if 32 ≤ c.toNat ∧ c.toNat < 127 then [c]
      else
        let digits := Nat.toDigits 8 c.toNat
        '\\' :: List.replicate (3 - digits.length) '0' ++ digits
  let step := fun (state : Nat × List (List Char)) (sign : List Char) =>
    let (width, out) := state
    if 1 < greatest ∧ greatest - 1 < width + sign.length then (sign.length, sign :: ['\\', '\n'] :: out) else (width + sign.length, sign :: out)
  ((chars.map sign).foldl step (0, [])).2.reverse.flatten ++ ['$', '\n']

def sinkOf (m : Manner) (path : String) : Sink := (m.sinks.lookup path).getD .output

/-- The next line of a file from which single lines are read. -/
def lineOf (path : String) : Editing (Option Bytes) := do
  let left ← match (← get).sources.lookup path with
    | some left => pure left
    | none =>
      match ← input path with
      | .ok bytes => pure (Tool.lines bytes)
      | .error _ => pure []
  modify fun e => { e with sources := (path, left.tail) :: e.sources.filter (·.1 ≠ path) }
  return left.head?

/-- The steps from one on are taken. -/
def perform (m : Manner) (name : String) : Nat → Nat → Editing Outcome
  | 0, _ => return .quit 1 false
  | n + 1, i => do
    match m.steps[i]? with
    | none => return .done true
    | some step =>
      let goOn := perform m name n (i + 1)
      let setSpace := fun (f : Editor → Line) => modify fun e => { e with space := f e }
      let setChars := fun (f : List Char → List Char) => modify fun e => { e with space := { e.space with chars := f e.space.chars } }
      let jump := fun (label : String) => do
        elapse 1
        perform m name n ((target m.steps.toList label).getD m.steps.size)
      if !(← isTaken m name i step.guard) then
        match step.deed with
        | .block past => perform m name n past
        | _ => goOn
      else
        match step.deed with
        | .block _ | .close | .label _ => goOn
        | .substitute s => do
          let r ← expressionOf name s.quest
          let text := (← get).space.chars
          let (out, found) := replaced ⟨text.toArray, s.quest.folds⟩ r s (text.length + 2) 0 0 none [] false
          if found then
            setChars fun _ => out.reverse.flatten
            modify fun e => { e with isReplaced := true }
            if s.isPrinted then putLine m .output (← get).space
            if let some path := s.path then putLine m (sinkOf m path) (← get).space
          goOn
        | .transliterate pairs => do
          setChars fun chars => chars.map fun c => (pairs.lookup c).getD c
          goOn
        | .append text => do
          modify fun e => { e with follows := e.follows ++ [.text text] }
          goOn
        | .insert text => do
          putText m .output text
          goOn
        | .change text => do
          let isOver := step.guard.bound.isNone || step.guard.isTurned || ((← get).running.lookup i).isNone
          if isOver then putText m .output text
          return .done false
        | .print => do
          putLine m .output (← get).space
          goOn
        | .printFirst => do
          putLine m .output ((← get).space.first m.delimiter)
          goOn
        | .delete => return .done false
        | .deleteFirst => do
          if m.delimiter ∈ (← get).space.chars then
            setChars fun chars => (chars.dropWhile (· ≠ m.delimiter)).tail
            return .again
          else return .done false
        | .next => do
          if ← isLast m name then return .done true
          if !m.isQuiet then putLine m .output (← get).space
          match ← advance m name with
          | some line => do
            setSpace fun _ => line
            goOn
          | none => return .quit 0 false
        | .join => do
          if ← isLast m name then return .done true
          match ← advance m name with
          | some line => do
            setSpace fun e => e.space.join m.delimiter line
            goOn
          | none => return .quit 0 true
        | .hold => do
          modify fun e => { e with held := e.space }
          goOn
        | .holdMore => do
          modify fun e => { e with held := e.held.join m.delimiter e.space }
          goOn
        | .recall => do
          setSpace (·.held)
          goOn
        | .recallMore => do
          setSpace fun e => e.space.join m.delimiter e.held
          goOn
        | .exchange => do
          modify fun e => { e with space := e.held, held := e.space }
          goOn
        | .empty => do
          setChars fun _ => []
          goOn
        | .number => do
          putText m .output (toString (← get).number ++ "\n").toList
          goOn
        | .shown width => do
          putText m .output (shownLines (width.getD m.width) (← get).space.chars)
          goOn
        | .name => do
          putText m .output ((((← get).current.map (·.1)).getD "-") ++ "\n").toList
          goOn
        | .quit code => return .quit code true
        | .leave code => return .quit code false
        | .readFile path => do
          modify fun e => { e with follows := e.follows ++ [.file path] }
          goOn
        | .readLine path => do
          if let some line ← lineOf path then
            modify fun e => { e with follows := e.follows ++ [.text (Octets.chars (bare line) ++ ['\n'])] }
          goOn
        | .writeFile path => do
          putLine m (sinkOf m path) (← get).space
          goOn
        | .writeFirst path => do
          putLine m (sinkOf m path) ((← get).space.first m.delimiter)
          goOn
        | .jump label => jump label
        | .jumpIfReplaced label => do
          if (← get).isReplaced then
            modify fun e => { e with isReplaced := false }
            jump label
          else goOn
        | .jumpUnlessReplaced label => do
          if (← get).isReplaced then
            modify fun e => { e with isReplaced := false }
            goOn
          else jump label

/-- What is left of a file that is edited in place goes where it was. -/
def keepRest (m : Manner) (name : String) : Nat → Editing Unit
  | 0 => pure ()
  | n + 1 => do
    match ← lookAhead m name with
    | none => pure ()
    | some line => do
      endLine m .output
      putRaw m .output line
      modify fun e => { e with ahead := none }
      keepRest m name n

/-- The lines of the input are edited.  The answer is the exit status that the script asks for. -/
def edit (m : Manner) (name : String) : Nat → Bool → Editing Nat
  | 0, _ => return 0
  | n + 1, isAgain => do
    let isThere ← if isAgain then pure true else do
      match ← advance m name with
      | some line => do
        modify fun e => { e with space := line }
        pure true
      | none => pure false
    if !isThere then return 0
    else
      match ← perform m name patience 0 with
      | .done isPut => do
        if isPut && !m.isQuiet then putLine m .output (← get).space
        edit m name n false
      | .again => do
        putFollows m
        edit m name n true
      | .quit code isPut => do
        if isPut && !m.isQuiet then putLine m .output (← get).space
        if isPut then
          putFollows m
          endLine m .output
        if m.inPlace.isSome then keepRest m name patience
        closeFile m
        return code

/-! ### calling -/

/-- Options in which a script that ends in a backslash goes on with the next one. -/
def joinedFlags (flags : List (String × String)) : List (String × String) :=
  flags.foldr (fun flag rest =>
    match flag, rest with
    | ("e", text), ("e", next) :: rest =>
      if text.endsWith "\\" then ("e", text ++ "\n" ++ next) :: rest else flag :: ("e", next) :: rest
    | flag, rest => flag :: rest) []

/-- The pieces of a script that options give, in their order. -/
def givenPieces (name : String) : List (String × String) → Nat → Action (List Piece)
  | [], _ => return []
  | ("e", text) :: rest, count => do
    let more ← givenPieces name rest (count + 1)
    return ⟨fun n => "-e expression #" ++ toString count ++ ", char " ++ toString n ++ ": ", text.toList⟩ :: more
  | ("f", path) :: rest, count => do
    match ← input path with
    | .error fault => abort name ("couldn't open file " ++ path ++ ": " ++ reason fault) 4
    | .ok bytes =>
      let chars := Octets.chars bytes
      let chars := if chars.getLast? = some '\n' then chars.dropLast else chars
      let line := fun (n : Nat) => 1 + (chars.take (n - 1)).count '\n'
      let more ← givenPieces name rest count
      return ⟨fun n => "file " ++ path ++ " line " ++ toString (line n) ++ ": ", chars⟩ :: more
  | _ :: rest, count => givenPieces name rest count

def writtenPaths (steps : List Step) : List String :=
  (steps.filterMap fun step =>
    match step.deed with
    | .writeFile path | .writeFirst path => some path
    | .substitute s => s.path
    | _ => none).eraseDups

/-- The files that lines are written to are opened. -/
def openSinks (name : String) : List String → Action (List (String × Sink))
  | [] => return []
  | path :: rest => do
    let sink ← if path = "/dev/stdout" then pure Sink.output
      else
        match ← openFile .write path with
        | .ok file => do
          let _ ← keep file
          pure (Sink.file file)
        | .error fault => abort name ("couldn't open file " ++ path ++ ": " ++ reason fault) 4
    return (path, sink) :: (← openSinks name rest)

end Edit

/-- The lines of the input, edited by a script. -/
def sed : Program := fun name args => do
  let o : Options := ⟨"bsnrzuEe:f:l:i", [("quiet", 'n'), ("silent", 'n'), ("expression", 'e'), ("file", 'f'),
    ("regexp-extended", 'E'), ("separate", 's'), ("unbuffered", 'u'), ("null-data", 'z'), ("line-length", 'l')], false, 1⟩
  let isEnding := fun (word : String) => word.startsWith "-i" || word.startsWith "--in-place"
  let options := args.takeWhile (· ≠ "--")
  let inPlace := ((options.filter isEnding).getLast?).map fun word =>
    if word.startsWith "-i" then (word.drop 2).toString else (word.drop "--in-place=".length).toString
  let x ← o.of name (options.filter (!isEnding ·) ++ args.drop options.length)
  let isGiven := x.hasAny ['e', 'f']
  match isGiven, x.operands with
  | false, [] => abort name "no script specified" 1
  | _, operands =>
    let given := if isGiven then x.flags else [("e", operands.headD "")]
    let paths := if isGiven then operands else operands.tail
    let pieces ← Edit.givenPieces name (Edit.joinedFlags given) 1
    match Edit.script (x.hasAny ['E', 'r']) pieces with
    | .error (text, status) => abort name text status
    | .ok (steps, isQuiet) =>
      if inPlace.isSome && paths.isEmpty then abort name "no input files" 4
      let sinks ← Edit.openSinks name (Edit.writtenPaths steps)
      let m : Edit.Manner :=
        { steps := steps.toArray, isQuiet := isQuiet || x.has 'n', isSeparate := x.has 's' || inPlace.isSome, inPlace
          delimiter := if x.has 'z' then '\x00' else '\n', width := ((x.value? 'l').bind String.toNat?).getD 70, sinks }
      let editor : Edit.Editor :=
        { space := ⟨[], true⟩, held := ⟨[], true⟩, number := 0, isReplaced := false, last := none
          running := steps.zipIdx.filterMap fun (step, i) => match step.guard.first with
            | some (.line 0) => some (i, none)
            | _ => none
          follows := [], sources := [], paths := if paths.isEmpty then ["-"] else paths, current := none, ahead := none
          unended := [], gathered := [] }
      let (code, _) ← (Edit.edit m name patience false).run editor
      if 0 < code then finish code

end Fleet.Shell.Tool
