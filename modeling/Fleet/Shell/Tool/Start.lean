import Fleet.Shell.Builtin.Usage
import Fleet.Shell.Jobs
import Fleet.Shell.Pattern
import Fleet.Shell.Tool.Line

/-!
# Programs that start others

Programs that start another one: with other variables, with arguments from their input, for a limited time, or for
each of the files that they find.
-/

namespace Fleet.Shell.Tool

open Text (Bytes)

/-- How programs start other programs: the path of one by its name, and what it does in the place of the process. -/
structure Starter where
  find : String → Action (Except SystemFault String)
  execute : String → List String → Action Unit

/-- The exit status of a program that cannot start another one. -/
def missingStatus : SystemFault → Nat
  | .notFound | .notDirectory => 127
  | _ => 126

/-- The process becomes a program, which is told if that is impossible. -/
def become (s : Starter) (name : String) (told : String → String) (words : List String) : Action Unit := do
  let called := words.headD ""
  match ← s.find called with
  | .ok place => s.execute place words
  | .error fault => abort name (told called ++ ": " ++ reason fault) (missingStatus fault)

/-! ### variables -/

/-- The variables that programs get, as lines. -/
def environmentLines : Action (List String) := do
  let given := (← current).bindings.filter fun (_, x) => x.isExported && x.value.isSome
  return (inRows 39 given.reverse).map fun (name, x) => name ++ "=" ++ x.value.getD ""

/-- A program is started with other variables, or the variables are told. -/
def env (s : Starter) : Program := fun name args => do
  let o : Options := ⟨"0iu:vC:", [("ignore-environment", 'i'), ("unset", 'u'), ("chdir", 'C'), ("null", '0')], true, 125⟩
  let x ← o.of name (args.map fun word => if word = "-" then "-i" else word)
  if x.has 'i' then change fun y => { y with bindings := [] }
  for name in x.values 'u' do change (·.unbind name)
  let isAssignment := fun (word : String) => (Builtin.assigned word).2.isSome && !word.startsWith "="
  for word in x.operands.takeWhile isAssignment do
    let (key, value) := Builtin.assigned word
    change fun y => y.bind key ⟨some (value.getD ""), true, false⟩
  if let some path := x.value? 'C' then
    let d ← here
    match d.find (Octets.path path), d.node (Octets.path path) with
    | .ok target, .ok (.directory _) => alterOwn fun p => { p with location := target.location }
    | _, .error fault | .error fault, _ =>
      abort name ("cannot change directory to " ++ quoted path ++ ": " ++ reason fault) 125
    | _, _ => abort name ("cannot change directory to " ++ quoted path ++ ": " ++ reason .notDirectory) 125
  match x.operands.dropWhile isAssignment with
  | [] => say (String.join ((← environmentLines).map (· ++ (if x.has '0' then "\x00" else "\n"))))
  | words => become s name quoted words

/-- The values of variables that programs get. -/
def printenv : Program := fun _ args => do
  if args.isEmpty then say (String.join ((← environmentLines).map (· ++ "\n")))
  else
    let x ← current
    for key in args do
      match (x.bindings.lookup key).filter (·.isExported) with
      | some ⟨some value, _, _⟩ => say (value ++ "\n")
      | _ => finish 1

/-! ### time -/

/-- The microseconds of a time such as `1.5` or `2m`. -/
def duration? (word : String) : Option Nat :=
  let (digits, unit) := word.toList.span fun c => c.isDigit || c == '.'
  let factor? := [("", 1), ("s", 1), ("m", 60), ("h", 3600), ("d", 86400)].lookup (String.ofList unit)
  match factor?, digits.splitOn '.' with
  | some factor, [whole] => (String.ofList whole).toNat?.map (· * factor * 1000000)
  | some factor, [whole, fraction] =>
    if whole = [] ∧ fraction = [] then none
    else
      let n := ((String.ofList (whole ++ fraction)).toNat?).getD 0
      some (n * factor * 1000000 / Nat.pow 10 fraction.length)
  | _, _ => none

def sleep : Program := fun name args => do
  match args.find? fun word => word.startsWith "-" && word ≠ "-" && word ≠ "--" with
  | some word => misuse name ("invalid option -- " ++ quoted ((word.drop 1).take 1).toString) 1
  | none => pure ()
  let args := args.filter (· ≠ "--")
  if args.isEmpty then misuse name "missing operand" 1
  let wrong := args.filter fun word => word ≠ "infinity" && word ≠ "inf" && (duration? word).isNone
  if !wrong.isEmpty then
    for word in wrong do warn (name ++ ": invalid time interval " ++ quoted word)
    hint name
    quit 1
  let times := args.map fun word => (duration? word).getD (1 <<< 60)
  elapse (times.foldl (· + ·) 0)

/-- A program is started, and is stopped when its time is over. -/
def timeout (s : Starter) : Program := fun name args => do
  let o : Options := ⟨"fk:s:v", [("signal", 's'), ("kill-after", 'k'), ("preserve-status", 'p'), ("foreground", 'f')], true, 125⟩
  let x ← o.of name (args.map fun word => if word = "--preserve-status" then "-f" else word)
  match x.operands with
  | [] | [_] => misuse name "missing operand" 125
  | time :: words =>
    match duration? time with
    | none => misuse name ("invalid time interval " ++ quoted time) 125
    | some duration =>
      let number ← match x.value? 's' with
        | none => pure 15
        | some word =>
          match Signal.ofName? (if word.toUpper.startsWith "SIG" then (word.drop 3).toString else word) with
          | some number => pure number
          | none => misuse name (quoted word ++ ": invalid signal") 125
      let child ← spawn false (become s name (fun word => "failed to run command " ++ quoted word) words)
      let limit := (← get).world.clock + duration
      if duration = 0 then pause (.ended [child]) else pause (.endedBy [child] limit)
      let isOver := (← get).world.isRunning child
      if isOver then
        alter (·.signal child number)
        if let some after := (x.value? 'k').bind duration? then
          pause (.endedBy [child] ((← get).world.clock + after))
          if (← get).world.isRunning child then alter (·.signal child Signal.kill)
        pause (.ended [child])
      let ending := ((← get).world.process? child).bind (·.ending)
      alter (·.reap child)
      match ending with
      | some (.exited code) => finish (if isOver then (if args.contains "--preserve-status" then code else 124) else code)
      | some (.killed killer) =>
        if isOver ∧ killer = Signal.kill then finish 137
        else finish (if isOver && !args.contains "--preserve-status" then 124 else 128 + killer)
      | none => finish 0

/-- A program is started that does not hear of hangups. -/
def nohup (s : Starter) : Program := fun name args => do
  let words := if args.head? = some "--" then args.tail else args
  if words.isEmpty then misuse name "missing operand" 125
  alterOwn fun p => { p with ignored := p.ignored ++ [1] }
  become s name (fun word => "failed to run command " ++ quoted word) words

/-- A program is started with another priority, which changes nothing. -/
def nice (s : Starter) : Program := fun name args => do
  let o : Options := ⟨"n:", [("adjustment", 'n')], true, 125⟩
  let x ← o.of name args
  if x.operands.isEmpty then say "0\n" else become s name quoted x.operands

/-! ### arguments from the input -/

/-- The words of a text: blanks separate them, quotes and backslashes keep blanks.  The line that a word ends is
known. -/
def inputWords : Nat → List Char → Option (List Char) → List String → Except String (List String)
  | 0, _, _, found => .ok found
  | _ + 1, [], word, found => .ok (found ++ (word.map String.ofList).toList)
  | n + 1, c :: rest, word, found =>
    let start := word.getD []
    if c = ' ' ∨ c = '\t' ∨ c = '\n' then inputWords n rest none (found ++ (word.map String.ofList).toList)
    else if c = '\'' ∨ c = '"' then
      let body := rest.takeWhile fun d => d != c && d != '\n'
      match rest.drop body.length with
      | d :: more =>
        if d = c then inputWords n more (some (start ++ body)) found
        else .error ("unmatched " ++ (if c = '"' then "double" else "single") ++
          " quote; by default quotes are special to xargs unless you use the -0 option")
      | [] => .error ("unmatched " ++ (if c = '"' then "double" else "single") ++
          " quote; by default quotes are special to xargs unless you use the -0 option")
    else if c = '\\' then
      match rest with
      | d :: more => inputWords n more (some (start ++ [d])) found
      | [] => inputWords n [] word found
    else inputWords n rest (some (start ++ [c])) found

/-- Lists of at most so many items. -/
def inGroups {α : Type} (size : Nat) : Nat → List α → List (List α)
  | 0, _ | _, [] => []
  | n + 1, items => items.take size :: inGroups size n (items.drop size)

/-- A program is run with further arguments in a process of its own.  The answer is its status. -/
def runOnce (s : Starter) (name : String) (words : List String) : Action ExitStatus := do
  flush
  let child ← spawn false do
    point 0 (← nothing)
    become s name id words
  pause (.ended [child])
  let ending := ((← get).world.process? child).bind (·.ending)
  alter (·.reap child)
  return ending.getD (.exited 0)
where
  /-- An open file that gives nothing. -/
  nothing : Action Nat := do
    match ← openFile .read "/dev/null" with
    | .ok file => return file
    | .error _ => quit 126

/-- A program is run with each of some lists of words, until one ends badly. -/
def runLists (s : Starter) (name : String) (isTraced : Bool) : List (List String) → Action Unit
  | [] => pure ()
  | words :: rest => do
    if isTraced then warn (String.intercalate " " words)
    match ← runOnce s name words with
    | .exited 0 => runLists s name isTraced rest
    | .exited 255 => abort name (words.headD "" ++ ": exited with status 255; aborting") 124
    | .exited 126 => quit 126
    | .exited 127 => quit 127
    | .exited _ => do
      finish 123
      runLists s name isTraced rest
    | .killed number => abort name (words.headD "" ++ ": terminated by signal " ++ toString number) 125

/-- A program is run with arguments from the input. -/
def xargs (s : Starter) : Program := fun name args => do
  let o : Options := ⟨"0a:d:E:I:L:n:pP:rs:tx", [("null", '0'), ("delimiter", 'd'), ("no-run-if-empty", 'r'),
    ("max-args", 'n'), ("max-lines", 'L'), ("replace", 'I'), ("verbose", 't'), ("arg-file", 'a'), ("max-procs", 'P')], true, 1⟩
  let x ← o.of name args
  let bytes ← match ← input ((x.value? 'a').getD "-") with
    | .ok bytes => pure bytes
    | .error fault => do
      let why := if fault = .isDirectory then "" else ": " ++ reason fault
      change fun x => { x with lastWords := some ("error closing file" ++ why) }
      pure []
  let text := Octets.chars bytes
  let delimiter? := if x.has '0' then some '\x00' else
    (x.value? 'd').bind fun d => (Octets.chars (Escape.bytes .format d).1).head?
  let command := if x.operands.isEmpty then ["echo"] else x.operands
  let traced := x.has 't'
  match x.value? 'I' with
  | some mark =>
    let lines := match delimiter? with
      | some d => (text.splitOn d).map String.ofList
      | none => (textLines bytes).map fun (line : String) => String.ofList (line.toList.dropWhile Numeral.isBlank)
    let lists := (lines.filter (· ≠ "")).map fun line => command.map fun (word : String) => word.replace mark line
    runLists s name traced lists
  | none =>
    let size? := (x.value? 'n').bind String.toNat?
    let groups ← match delimiter?, (x.value? 'L').bind String.toNat? with
      | some d, _ =>
        let pieces := text.splitOn d
        let pieces := if pieces.getLast? = some [] then pieces.dropLast else pieces
        pure (inGroups (size?.getD (pieces.length + 1)) (pieces.length + 1) (pieces.map String.ofList))
      | none, some count =>
        let lines := (textLines bytes).filter fun line => !line.toList.all Numeral.isBlank
        let words := lines.map fun line => ((inputWords (line.length + 1) line.toList none []).toOption).getD []
        pure ((inGroups count (words.length + 1) words).map List.flatten)
      | none, none =>
        match inputWords (text.length + 1) text none [] with
        | .ok words => pure (inGroups (size?.getD (words.length + 1)) (words.length + 1) words)
        | .error fault => abort name fault 1
    let groups := if groups.isEmpty && !x.has 'r' then [[]] else groups
    runLists s name traced (groups.map (command ++ ·))

/-! ### files that are found -/

/-- A condition on a file that is found, or what is done with it. -/
inductive FindTest where
  | name (pattern : Pattern) (folds : Bool)
  | path (pattern : Pattern)
  | kind (letter : Char)
  | isEmpty
  | isStartable
  | print (ending : String)
  | run (words : List String)
  | runAll (words : List String)
  | delete
  | prune
  | constant (value : Bool)
  | negated (test : FindTest)
  | both (first second : FindTest)
  | either (first second : FindTest)
  deriving Inhabited

namespace FindTest

/-- Whether a test does something with files. -/
def acts : FindTest → Bool
  | .print _ | .run _ | .runAll _ | .delete => true
  | .negated test => test.acts
  | .both first second | .either first second => first.acts || second.acts
  | _ => false

def patternOf (text : String) : Pattern := Pattern.parse (text.toList.map fun c => (c, false))

mutual

/-- The alternatives that words begin with, and the words after them. -/
def alternatives : Nat → List String → Except String (FindTest × List String)
  | 0, words => .ok (.constant true, words)
  | n + 1, words => do
    let (first, rest) ← all n words
    match rest with
    | "-o" :: rest | "-or" :: rest => do
      let (second, rest) ← alternatives n rest
      return (.either first second, rest)
    | rest => return (first, rest)

/-- The tests that words begin with, all of which must hold, and the words after them. -/
def all : Nat → List String → Except String (FindTest × List String)
  | 0, words => .ok (.constant true, words)
  | n + 1, words => do
    let (first, rest) ← one n words
    match rest with
    | [] | ")" :: _ | "-o" :: _ | "-or" :: _ => return (first, rest)
    | "-a" :: rest | "-and" :: rest | rest => do
      let (second, rest) ← all n rest
      return (.both first second, rest)

/-- The test that words begin with, and the words after it. -/
def one : Nat → List String → Except String (FindTest × List String)
  | 0, words => .ok (.constant true, words)
  | n + 1, words =>
    match words with
    | "!" :: rest | "-not" :: rest => do
      let (test, rest) ← one n rest
      return (.negated test, rest)
    | "(" :: rest => do
      let (test, rest) ← alternatives n rest
      match rest with
      | ")" :: rest => return (test, rest)
      | _ => throw "invalid expression; I was expecting to find a ')' somewhere but did not see one."
    | "-name" :: text :: rest => return (.name (patternOf text) false, rest)
    | "-iname" :: text :: rest => return (.name (patternOf text.toLower) true, rest)
    | "-path" :: text :: rest => return (.path (patternOf text), rest)
    | "-type" :: text :: rest => return (.kind (text.toList.headD 'f'), rest)
    | "-empty" :: rest => return (.isEmpty, rest)
    | "-executable" :: rest => return (.isStartable, rest)
    | "-print" :: rest => return (.print "\n", rest)
    | "-print0" :: rest => return (.print "\x00", rest)
    | "-delete" :: rest => return (.delete, rest)
    | "-prune" :: rest => return (.prune, rest)
    | "-true" :: rest => return (.constant true, rest)
    | "-false" :: rest => return (.constant false, rest)
    | "-exec" :: rest => do
      let words := rest.takeWhile fun word => word ≠ ";" && word ≠ "+"
      match rest.drop words.length with
      | ";" :: rest => return (.run words, rest)
      | "+" :: rest => return (.runAll words.dropLast, rest)
      | _ => throw "missing argument to '-exec'"
    | word :: rest =>
      if word ∈ ["-name", "-iname", "-path", "-type"] ∧ rest = [] then throw ("missing argument to '" ++ word ++ "'")
      else throw ("unknown predicate '" ++ word ++ "'")
    | [] => return (.constant true, [])

end

/-- A file that is found: its path, its location and what it is. -/
structure Found where
  path : String
  location : Location
  node : FileNode
  depth : Nat

/-- Whether a test holds of a file.  What it does is done, and the paths for programs that are run once for all
files are gathered. -/
def holds (s : Starter) (name : String) (f : Found) : FindTest → Action (Bool × List (List String × String))
  | .name pattern folds =>
    let last := (((f.path.toList.splitOn '/').filter (· ≠ [])).getLast?).getD f.path.toList
    return (pattern.admits (if folds then last.map Char.toLower else last), [])
  | .path pattern => return (pattern.admits f.path.toList, [])
  | .kind letter =>
    return (match f.node with
      | .directory _ => letter == 'd'
      | .file .. => letter == 'f'
      | .device _ => letter == 'c', [])
  | .isEmpty =>
    return (match f.node with
      | .directory entries => entries.isEmpty
      | .file bytes _ => bytes.isEmpty
      | .device _ => false, [])
  | .isStartable =>
    return (match f.node with
      | .directory _ | .file _ true => true
      | _ => false, [])
  | .print ending => do
    say (f.path ++ ending)
    return (true, [])
  | .run words => do
    let ending ← runOnce s name (words.map fun word => word.replace "\x7b\x7d" f.path)
    return (ending == .exited 0, [])
  | .runAll words => return (true, [(words, f.path)])
  | .delete => do
    alter (·.remove f.location)
    return (true, [])
  | .prune => return (true, [])
  | .constant value => return (value, [])
  | .negated test => do
    let (value, more) ← holds s name f test
    return (!value, more)
  | .both first second => do
    let (value, told) ← holds s name f first
    if value then
      let (value, more) ← holds s name f second
      return (value, told ++ more)
    else return (false, told)
  | .either first second => do
    let (value, told) ← holds s name f first
    if value then return (true, told)
    else
      let (value, more) ← holds s name f second
      return (value, told ++ more)

end FindTest

/-- Files are found at and below paths. -/
def find (s : Starter) : Program := fun name args => do
  let paths := args.takeWhile fun word => !word.startsWith "-" && word ≠ "!" && word ≠ "("
  let words := args.drop paths.length
  let bound := fun (option : String) =>
    (words.idxOf? option).bind fun i => (words[i + 1]?).bind String.toNat?
  let withoutBounds := dropBounds words
  match FindTest.alternatives (4 * words.length + 4) withoutBounds with
  | .error fault => abort name fault 1
  | .ok (test, rest) =>
    if !rest.isEmpty then abort name "invalid expression; you have too many ')'" 1
    let whole := if test.acts then test else .both test (.print "\n")
    let isLate := withoutBounds.contains "-delete" || words.contains "-depth"
    let mut gathered : List (List String × String) := []
    for path in if paths.isEmpty then ["."] else paths do
      let d ← here
      match d.find (Octets.path path), d.node (Octets.path path) with
      | .ok target, .ok node =>
        let start := if path.endsWith "/" then path else path ++ "/"
        let below := (d.tree.below target.location).map fun (l, node) =>
          FindTest.Found.mk (start ++ Octets.encode (String.intercalate "/" l)) (target.location ++ l) node l.length
        let all := FindTest.Found.mk path target.location node 0 :: below
        for f in if isLate then all.reverse else all do
          if (bound "-maxdepth").all (f.depth ≤ ·) && (bound "-mindepth").all (· ≤ f.depth) then
            let (_, more) ← FindTest.holds s name f whole
            gathered := gathered ++ more
      | _, .error fault | .error fault, _ => fail name (quoted path ++ ": " ++ reason fault)
    for command in (gathered.map (·.1)).eraseDups do
      let ending ← runOnce s name (command ++ (gathered.filter (·.1 = command)).map (·.2))
      if ending != .exited 0 then finish 1
where
  /-- The words without the bounds of the depth. -/
  dropBounds : List String → List String
    | "-maxdepth" :: _ :: rest | "-mindepth" :: _ :: rest => dropBounds rest
    | "-depth" :: rest => dropBounds rest
    | word :: rest => word :: dropBounds rest
    | [] => []

end Fleet.Shell.Tool
