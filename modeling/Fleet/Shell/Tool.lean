import Fleet.FileTree.Folder
import Fleet.Shell.Redirection
import Fleet.Shell.Search

/-!
# Programs

What the programs of the machine share: their files, their options, their input, and the words for what goes wrong.
Each program is an action that gets the name it is called by and its arguments, reads its input, writes its output
and its messages, and ends with an exit status.
-/

namespace Fleet.Shell

/-- A program: what is done under a name with arguments. -/
abbrev Program := String → List String → Action Unit

namespace Tool

open Text (Bytes)

/-! ### files of programs -/

/-- What the files of programs begin with. -/
def mark : Bytes := [0x7f, 0x45, 0x4c, 0x46]

/-- What the file of a program holds. -/
def image (name : String) : Bytes := mark ++ Octets.bytes name

def imaged? (bytes : Bytes) : Option String :=
  if mark.isPrefixOf bytes then some (Octets.ofBytes (bytes.drop mark.length)) else none

/-! ### messages -/

/-- A text as it stands in a message. -/
def quoted (text : String) : String := "'" ++ text ++ "'"

/-- A message of a program, after which it fails. -/
def fail (name text : String) : Action Unit := do
  warn (name ++ ": " ++ text)
  finish 1

def abort {α : Type} (name text : String) (status : Nat) : Action α := do
  warn (name ++ ": " ++ text)
  quit status

def hint (name : String) : Action Unit := warn ("Try '" ++ name ++ " --help' for more information.")

/-- A program ends because it was called wrongly. -/
def misuse {α : Type} (name text : String) (status : Nat) : Action α := do
  warn (name ++ ": " ++ text)
  hint name
  quit status

/-! ### options -/

/-- What a program is called with. -/
structure Arguments where
  /-- the options, each with its value -/
  flags : List (String × String)
  operands : List String

namespace Arguments

def has (x : Arguments) (flag : Char) : Bool := x.flags.any (·.1 == String.singleton flag)

/-- Whether one of some options is there. -/
def hasAny (x : Arguments) (flags : List Char) : Bool := flags.any x.has

/-- The value of an option that was given last. -/
def value? (x : Arguments) (flag : Char) : Option String :=
  (x.flags.reverse.find? (·.1 == String.singleton flag)).map (·.2)

def values (x : Arguments) (flag : Char) : List String :=
  (x.flags.filter (·.1 == String.singleton flag)).map (·.2)

/-- The last of some options that were given. -/
def last? (x : Arguments) (flags : List Char) : Option Char :=
  flags.find? fun c => (x.flags.filter fun f => flags.any fun c => f.1 == String.singleton c).getLast?.any
    (·.1 == String.singleton c)

end Arguments

/-- Which options a program has: the letters, those with values before colons, and the long names, each with the
letter that it stands for. -/
structure Options where
  letters : String
  names : List (String × Char)
  /-- operands end the options -/
  isStrict : Bool
  /-- the exit status of one who is called with other options -/
  failure : Nat

namespace Options

def hasValue (o : Options) (c : Char) : Bool := (o.letters.toList.dropWhile (· ≠ c)).tail.head? == some ':'

def isKnown (o : Options) (c : Char) : Bool := c != ':' && o.letters.toList.contains c

def read (o : Options) (name : String) : Nat → List String → Action Arguments
  | 0, _ | _, [] => return ⟨[], []⟩
  | n + 1, word :: rest => do
    let goOn := fun (found : List (String × String)) (rest : List String) => do
      let x ← o.read name n rest
      return { x with flags := found ++ x.flags }
    match word.toList with
    | ['-', '-'] => return ⟨[], rest⟩
    | '-' :: '-' :: long =>
      let (key, value) := long.span (· != '=')
      let key := String.ofList key
      match o.names.find? (·.1 = key) <|> o.names.find? (·.1.startsWith key) with
      | none => misuse name ("unrecognized option " ++ quoted word) o.failure
      | some (full, c) =>
        let flag := String.singleton c
        if o.hasValue c then
          match value, rest with
          | _ :: value, _ => goOn [(flag, String.ofList value)] rest
          | [], value :: rest => goOn [(flag, value)] rest
          | [], [] => misuse name ("option " ++ quoted ("--" ++ full) ++ " requires an argument") o.failure
        else goOn [(flag, "")] rest
    | '-' :: c :: more =>
      let plain := (c :: more).takeWhile fun c => o.isKnown c && !o.hasValue c
      let found := plain.map fun c => (String.singleton c, "")
      match (c :: more).drop plain.length, rest with
      | [], _ => goOn found rest
      | c :: value, rest =>
        if !o.isKnown c then misuse name ("invalid option -- " ++ quoted (String.singleton c)) o.failure
        else
          match value, rest with
          | [], [] => misuse name ("option requires an argument -- " ++ quoted (String.singleton c)) o.failure
          | [], word :: rest => goOn (found ++ [(String.singleton c, word)]) rest
          | value, rest => goOn (found ++ [(String.singleton c, String.ofList value)]) rest
    | _ =>
      if o.isStrict then return ⟨[], word :: rest⟩
      else
        let x ← o.read name n rest
        return { x with operands := word :: x.operands }

/-- The options and operands among all arguments. -/
def of (o : Options) (name : String) (args : List String) : Action Arguments := o.read name (args.length + 1) args

end Options

/-- The options of a program whose operands may stand before them. -/
def options (letters : String) (names : List (String × Char)) : Options := ⟨letters, names, false, 1⟩

/-! ### input -/

/-- The open file of an operand: a file, or the input. -/
def source (path : String) : Action (Except SystemFault Nat) := do
  let opened ← if path = "-" then do
      match ← source? 0 with
      | some file => pure (.ok file)
      | none => pure (.error (.described Refusal.badDescriptor.message))
    else openFile .read path
  match opened with
  | .ok file =>
    match ((← get).world.openFile? file).map OpenFile.channel with
    | some (.directory _) => return .error .isDirectory
    | _ => return .ok file
  | .error fault => return .error fault

/-- What is done with an open file, which is let go then. -/
def withSource {α : Type} (file : Nat) (a : Action α) : Action α := do
  let descriptor ← keep file
  ensuring a (release descriptor)

def input (path : String) : Action (Except SystemFault Bytes) := do
  match ← source path with
  | .ok file => return .ok (← withSource file (collectAll file patience []))
  | .error fault => return .error fault

/-- The words for an operand that cannot be read. -/
def unreadable (path : String) (fault : SystemFault) : String := path ++ ": " ++ reason fault

/-- The words of a program for an input that cannot be read, and its exit status. -/
def inputFailure (program fault : String) (isClosed : Bool) : String × Nat :=
  match program with
  | "head" => ("error reading 'standard input': " ++ fault, 1)
  | "tail" => ((if isClosed then "cannot fstat" else "error reading") ++ " 'standard input': " ++ fault, 1)
  | "wc" => ("'standard input': " ++ fault, 1)
  | "tac" => ("'standard input': read error: " ++ fault, 1)
  | "uniq" => ("error reading '-': " ++ fault, 1)
  | "tr" | "tee" => ("read error: " ++ fault, 1)
  | "sort" => ((if isClosed then "stat failed" else "read failed") ++ ": -: " ++ fault, 2)
  | "grep" | "egrep" | "fgrep" => ("(standard input): " ++ fault, 2)
  | "sed" => ("read error on stdin: " ++ fault, 4)
  | _ => ("-: " ++ fault, 1)

/-- The words of a program that cannot close its input because it is closed. -/
def closingFailure? (program : String) : Option String :=
  match program with
  | "cat" => some "closing standard input"
  | "tee" => some "standard input"
  | "cut" | "fold" | "head" | "nl" | "paste" | "tac" | "tail" | "wc" => some "-"
  | _ => none

/-- The program of a name that may have directories in it. -/
def programName (name : String) : String := (name.splitOn "/").getLastD name

/-- An operand that cannot be read is told in some words, or in those for the input if it is that. -/
def refuse (name path words : String) (fault : SystemFault) : Action Unit := do
  if path = "-" then
    let s ← get
    let isClosed := (s.world.descriptor? s.id 0).isNone
    let (text, status) := inputFailure (programName name) (reason fault) isClosed
    warn (name ++ ": " ++ text)
    finish status
    if isClosed then
      change fun x => { x with lastWords := (closingFailure? (programName name)).map (· ++ ": " ++ reason fault) }
  else fail name words

/-- What is done with the bytes of each operand, or of the input if there is none.  One that cannot be read is told. -/
def eachInput (name : String) (paths : List String) (use : String → Bytes → Action Unit) : Action Unit := do
  for path in if paths.isEmpty then ["-"] else paths do
    match ← input path with
    | .ok bytes => use path bytes
    | .error fault => refuse name path (unreadable path fault) fault

/-- The lines of bytes, each with its newline if it has one. -/
def lines (b : Bytes) : List Bytes :=
  let pieces := b.splitOn 10
  pieces.dropLast.map (· ++ [10]) ++ (pieces.getLast?.filter (· ≠ [])).toList

def bare (line : Bytes) : Bytes := if line.getLast? = some 10 then line.dropLast else line

def textLines (b : Bytes) : List String := (lines b).map fun line => Octets.ofBytes (bare line)

/-! ### running -/

/-- The words of a program that could not write its output, and its exit status. -/
def outputFailure (program fault : String) : String × Nat :=
  let usual := "write error: " ++ fault
  match program with
  | "ls" | "grep" | "egrep" | "fgrep" | "printenv" => (usual, 2)
  | "expr" => (usual, 3)
  | "env" => (usual, 125)
  | "sed" => ("couldn't flush stdout: " ++ fault, 4)
  | "sort" =>
    let again := if fault = Refusal.badDescriptor.message then ": " ++ fault else ""
    ("fflush failed: 'standard output': " ++ fault ++ "\nsort: write error" ++ again, 2)
  | "tee" => ("'standard output': " ++ fault, 1)
  | "yes" => ("standard output: " ++ fault, 1)
  | _ => (usual, 1)

/-- A program is run.  Its output is written at its end or in whole blocks, unless the program writes at once; what
could not be written is told at the end. -/
def run (program : Program) (name : String) (args : List String) : Action Unit := do
  change fun x => { x with outputFault := none, lastWords := none, commandName := none }
  holdBack true
  finish 0
  let isLeft ← try
      program name args
      pure false
    catch interrupt => if interrupt == .exit then pure true else throw interrupt
  flush
  holdBack false
  if let some fault := (← current).outputFault then
    change fun x => { x with outputFault := none }
    let (text, status) := outputFailure (programName name) fault
    abort name text status
  if let some words := (← current).lastWords then
    change fun x => { x with lastWords := none }
    fail name words
  if isLeft then throw .exit

end Tool

end Fleet.Shell
