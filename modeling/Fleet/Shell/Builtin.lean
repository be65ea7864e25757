import Fleet.Shell.Builtin.Condition
import Fleet.Shell.Builtin.Directory
import Fleet.Shell.Builtin.Processes
import Fleet.Shell.Builtin.Variables
import Fleet.Shell.Format

/-!
# Builtins

The commands that a shell carries out itself.  Each of them answers with its exit status.  Those that run other
commands are named here and carried out where commands are run.
-/

namespace Fleet.Shell

namespace Builtin

/-! ### texts -/

/-- The arguments with blanks between them, with their escapes read, and a newline unless the first is `-n`. -/
def echo (args : List String) : Action Nat := do
  let (words, ending) : List String × Text.Bytes := match args with
    | "-n" :: rest => (rest, [])
    | words => (words, [10])
  let (bytes, goesOn) := Escape.bytes .words (String.intercalate " " words)
  emit (if goesOn then bytes ++ ending else bytes)
  return 0

def printf (args : List String) : Action Nat := do
  match ← operands args with
  | [] => blame "usage: printf format [arg ...]"
  | format :: args =>
    let (printed, fault?) := Format.print format args
    let doubts := Format.Printed.doubtsOf printed
    for (argument, doubt) in doubts do complain (argument ++ ": " ++ doubtText doubt)
    if let some text := fault? then complain text
    emit (Format.Printed.bytesOf printed)
    if fault?.isSome then
      finish 2
      throw .fault
    return if doubts.isEmpty then 0 else 1
where
  /-- The shell's words for a doubt. -/
  doubtText : Format.Doubt → String
    | .noNumber => "expected numeric value"
    | .onlyPartly => "not completely converted"
    | .outOfRange => "Numerical result out of range"

/-! ### names -/

/-- Texts are given to stand for words, or are told. -/
def tellAliases (args : List String) : Action Nat := do
  let line := fun (entry : String × String) => entry.1 ++ "=" ++ quoted entry.2 ++ "\n"
  let known := inRows 39 (← current).aliases
  let mut told := if args.isEmpty then String.join (known.map line) else ""
  let mut status := 0
  for word in args do
    match word.toList with
    | c :: rest =>
      match rest.span (· != '=') with
      | (name, _ :: value) =>
        let name := String.ofList (c :: name)
        let entry := (name, String.ofList value)
        change fun x =>
          { x with
            aliases :=
              if x.aliases.any (·.1 = name) then x.aliases.map fun old => if old.1 = name then entry else old
              else x.aliases ++ [entry] }
      | (_, []) =>
        match (← current).aliases.lookup word with
        | some text => told := told ++ line (word, text)
        | none =>
          warn ("alias: " ++ word ++ " not found")
          status := 1
    | [] => status := 1
  say told
  return status

/-- Names do not stand for texts any more. -/
def unalias (args : List String) : Action Nat := do
  let (flags, words) ← options ['a'] args
  if !flags.isEmpty then
    change fun x => { x with aliases := [] }
    return 0
  let mut status := 0
  for word in words do
    if (← current).aliases.any (·.1 = word) then
      change fun x => { x with aliases := x.aliases.filter (·.1 ≠ word) }
    else
      warn ("unalias: " ++ word ++ " not found")
      status := 1
  return status

/-! ### leaving -/

def exit (args : List String) : Action Nat := do
  if let word :: _ := args then
    let status ← number word
    change fun x => { x with finalStatus := some status }
  throw .exit

/-- A function or a file of commands is left. -/
def leave (args : List String) : Action Nat := do
  if let word :: _ := args then finish (← number word)
  throw (.leaveFunction !args.isEmpty)

/-- The number of loops that an argument names, if the command is in a loop. -/
def loops? (args : List String) : Action (Option Nat) := do
  let count ← match args with
    | [] => pure 1
    | word :: _ => number word
  if count = 0 then blame ("Illegal number: " ++ args.headD "")
  let loops := (← current).loops
  return if loops = 0 then none else some (min count loops)

def leaveLoops (interrupt : Nat → Interrupt) (args : List String) : Action Nat := do
  match ← loops? args with
  | some count =>
    finish 0
    throw (interrupt count)
  | none => return 0

end Builtin

/-- What a builtin does. -/
inductive Work where
  | plain (run : List String → Action Nat)
  /-- its arguments are a text of commands -/
  | eval
  /-- its argument is a file of commands -/
  | source
  /-- a program takes the place of the shell -/
  | exec
  /-- a command is run that is no function -/
  | command
  /-- what names mean is told -/
  | type
  | hash

namespace Work

def ofName? : String → Option Work
  | "." => some .source
  | ":" | "true" => some (.plain fun _ => return 0)
  | "false" => some (.plain fun _ => return 1)
  | "[" => some (.plain Builtin.bracket)
  | "alias" => some (.plain Builtin.tellAliases)
  | "bg" | "fg" => some (.plain Builtin.resume)
  | "break" => some (.plain (Builtin.leaveLoops .leaveLoop))
  | "cd" | "chdir" => some (.plain Builtin.cd)
  | "command" => some .command
  | "continue" => some (.plain (Builtin.leaveLoops .nextRound))
  | "echo" => some (.plain Builtin.echo)
  | "eval" => some .eval
  | "exec" => some .exec
  | "exit" => some (.plain Builtin.exit)
  | "export" => some (.plain Builtin.exports)
  | "getopts" => some (.plain Builtin.getopts)
  | "hash" => some .hash
  | "jobs" => some (.plain Builtin.jobs)
  | "kill" => some (.plain Builtin.kill)
  | "local" => some (.plain Builtin.locals)
  | "printf" => some (.plain Builtin.printf)
  | "pwd" => some (.plain Builtin.pwd)
  | "read" => some (.plain Builtin.read)
  | "readonly" => some (.plain Builtin.readonlys)
  | "return" => some (.plain Builtin.leave)
  | "set" => some (.plain Builtin.set)
  | "shift" => some (.plain Builtin.shift)
  | "test" => some (.plain Builtin.test)
  | "times" => some (.plain Builtin.times)
  | "trap" => some (.plain Builtin.trap)
  | "type" => some .type
  | "ulimit" => some (.plain Builtin.ulimit)
  | "umask" => some (.plain Builtin.umask)
  | "unalias" => some (.plain Builtin.unalias)
  | "unset" => some (.plain Builtin.unset)
  | "wait" => some (.plain Builtin.wait)
  | _ => none

/-- Whether the arguments of a builtin may be assignments, which are not split. -/
def takesAssignments (name : String) : Bool := name ∈ ["alias", "export", "local", "readonly"]

end Work

/-! ### what names mean -/

/-- What a name means as a command. -/
inductive Meaning where
  | keyword
  | alias (text : String)
  | function (body : Command)
  | builtin (work : Work)
  /-- a program, perhaps one that the shell has found before -/
  | program (path : String) (isRemembered : Bool)
  | nothing (fault : SystemFault)

/-- What runs under a name: a function, a builtin, or a program by a search path. -/
def commandOf (withFunctions : Bool) (path name : String) : Action Meaning := do
  let x ← current
  match (if withFunctions then x.functions.lookup name else none), Work.ofName? name with
  | some body, _ => return .function body
  | none, some work => return .builtin work
  | none, none =>
    if '/' ∈ name.toList then return .program name false
    else
      let isRemembered := (x.places.lookup name).isSome
      match ← findProgram path name with
      | .ok place =>
        if path = (← searchPath) then remember name place
        return .program place isRemembered
      | .error fault => return .nothing fault

def meaningOf (path? : Option String) (name : String) : Action Meaning := do
  let x ← current
  if name ∈ Token.keywords then return .keyword
  else
    match x.aliases.lookup name with
    | some text => return .alias text
    | none =>
      match ← commandOf true (path?.getD (← searchPath)) name with
      | .program place isRemembered =>
        if '/' ∈ name.toList ∧ ((← here).node (Octets.path name)).toOption.isNone then return .nothing .notFound
        else return .program place (isRemembered && path?.isNone)
      | meaning => return meaning

/-- What a name means is told, in words or as it is called.  The answer is the exit status. -/
def describe (inWords : Bool) (path? : Option String) (name : String) : Action Nat := do
  let tell := fun (words called : String) => do
    say ((if inWords then name ++ words else called) ++ "\n")
    return 0
  match ← meaningOf path? name with
  | .keyword => tell " is a shell keyword" name
  | .alias text => tell (" is an alias for " ++ text) ("alias " ++ name ++ "=" ++ Builtin.quoted text)
  | .function _ => tell " is a shell function" name
  | .builtin _ =>
    tell (if name ∈ specialBuiltins then " is a special shell builtin" else " is a shell builtin") name
  | .program place isRemembered =>
    tell ((if isRemembered then " is a tracked alias for " else " is ") ++ place) place
  | .nothing _ =>
    if inWords then say (name ++ ": not found\n")
    return 127

def describeAll : List String → Nat → Action Nat
  | [], status => return status
  | name :: rest, status => do
    let found ← describe true none name
    describeAll rest (status ||| found)

/-- The shell finds out where programs are, or tells it, or forgets it. -/
def rehash (args : List String) : Action Nat := do
  let (flags, names) ← Builtin.options ['r'] args
  if !flags.isEmpty then
    change fun x => { x with places := [] }
    return 0
  if names.isEmpty then say (String.join ((inRows 31 (← current).places).map fun place => place.2 ++ "\n"))
  let mut status := 0
  for name in names do
    change fun x => { x with places := x.places.filter (·.1 ≠ name) }
    match ← commandOf true (← searchPath) name with
    | .nothing fault =>
      complain (name ++ ": " ++ startingFault fault)
      status := 1
    | _ => pure ()
  return status

end Fleet.Shell
