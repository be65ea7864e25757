import Fleet.Job
import Fleet.Shell.Syntax
import Fleet.Text.Utf8

/-!
# Sessions

What a shell remembers while it runs commands: variables, arguments, functions, options and the jobs that it has
started.  A process that a shell forks begins with the same session.
-/

namespace Fleet.Shell

/-- A variable. -/
structure Variable where
  /-- one that is not set may yet be known by what it is to be -/
  value : Option String
  /-- programs that are started get it -/
  isExported : Bool
  isReadOnly : Bool
  deriving DecidableEq, Inhabited

/-- A job in the background. -/
structure JobEntry where
  number : Nat
  /-- its processes, the last one of which gives the job its status -/
  processes : List Nat
  /-- how its processes have ended, as far as they have -/
  endings : List (Nat × ExitStatus)
  /-- its end has been waited for -/
  isAwaited : Bool
  deriving Inhabited

namespace JobEntry

def isRunning (job : JobEntry) : Bool := job.processes.any fun id => (job.endings.lookup id).isNone

def ending? (job : JobEntry) : Option ExitStatus := job.processes.getLast?.bind fun id => job.endings.lookup id

end JobEntry

/-- What has been put out and is not written yet. -/
structure Backlog where
  size : Nat
  /-- the bytes, the last ones first -/
  chunks : List Text.Bytes
  deriving Inhabited

namespace Backlog

def empty : Backlog := ⟨0, []⟩

/-- The bytes that are left to be written. -/
def bytes (b : Backlog) : Text.Bytes := b.chunks.reverse.flatten

def add (b : Backlog) (bytes : Text.Bytes) : Backlog := ⟨b.size + bytes.length, bytes :: b.chunks⟩

end Backlog

/-- What a shell remembers. -/
structure Session where
  /-- the number of the process that the shell began in -/
  shellId : Nat
  name : String
  arguments : List String
  bindings : List (String × Variable)
  functions : List (String × Command)
  aliases : List (String × String)
  /-- where programs have been found -/
  places : List (String × String)
  /-- the exit status of the last command -/
  status : Nat
  /-- the exit status of the last command of this line whose output became part of a word -/
  outputStatus : Nat
  lastBackground : Option Nat
  /-- the jobs, the latest one first -/
  jobs : List JobEntry
  /-- the letters of the options that are on -/
  flags : List Char
  /-- the commands that signals are answered with; those for 0 are run when the shell ends -/
  traps : List (Nat × String)
  /-- the exit status that the shell is to end with after its last commands -/
  finalStatus : Option Nat
  /-- how many loops the command is in -/
  loops : Nat
  /-- how many functions and files of commands are being run -/
  scopes : List (List (String × Option Variable))
  /-- the next argument that is looked at for options, and where in it -/
  nextOption : Nat
  optionOffset : Option Nat
  /-- the permissions that new files do not get -/
  mask : Nat
  line : Nat
  /-- the builtin that is being run -/
  commandName : Option String
  /-- why output could not be written -/
  outputFault : Option String
  /-- what a program says at its end about its input -/
  lastWords : Option String
  /-- what a program has put out and not written yet, if it does not write at once -/
  backlog : Option Backlog
  /-- the shell knows more than a POSIX shell -/
  isExtended : Bool
  deriving Inhabited

namespace Session

/-! ### variables -/

def value? (s : Session) (name : String) : Option String := (s.bindings.lookup name).bind (·.value)

def bind (s : Session) (name : String) (x : Variable) : Session :=
  { s with bindings := (name, x) :: s.bindings.filter (·.1 ≠ name) }

def unbind (s : Session) (name : String) : Session :=
  { s with bindings := s.bindings.filter (·.1 ≠ name) }

def isReadOnly (s : Session) (name : String) : Bool := (s.bindings.lookup name).any (·.isReadOnly)

def has (s : Session) (flag : Char) : Bool := s.flags.contains flag

def assign (s : Session) (name value : String) : Session :=
  let x := (s.bindings.lookup name).getD ⟨none, false, false⟩
  s.bind name { x with value := some value, isExported := x.isExported || s.has 'a' }

def restore (s : Session) (name : String) : Option Variable → Session
  | some x => s.bind name x
  | none => s.unbind name

/-- The characters that separate fields, if some are set. -/
def separators (s : Session) : List Char := ((s.value? "IFS").getD " \t\n").toList

/-! ### options -/

/-- The options: their names, and their letters if they have one. -/
def options : List (String × Option Char) :=
  [("errexit", some 'e'), ("noglob", some 'f'), ("ignoreeof", some 'I'), ("interactive", some 'i'),
    ("monitor", some 'm'), ("noexec", some 'n'), ("stdin", some 's'), ("xtrace", some 'x'), ("verbose", some 'v'),
    ("vi", some 'V'), ("emacs", some 'E'), ("noclobber", some 'C'), ("allexport", some 'a'), ("notify", some 'b'),
    ("nounset", some 'u'), ("privileged", some 'p'), ("nolog", none), ("debug", none)]

/-- The session with an option on or off.  Of the two ways of editing lines one alone is on. -/
def setFlag (s : Session) (isOn : Bool) (flag : Char) : Session :=
  let rival := if isOn then [('V', 'E'), ('E', 'V')].lookup flag else none
  let others := s.flags.filter fun c => c ≠ flag ∧ some c ≠ rival
  { s with flags := if isOn then flag :: others else others }

/-- The letters of the options that are on, as they are told. -/
def flagText (s : Session) : String :=
  String.ofList ((options.reverse.filterMap (·.2)).filter s.has)

/-! ### signals and functions -/

/-- Whether signals or the end of the shell are answered with commands. -/
def hasTraps (s : Session) : Bool := s.traps.any fun trap => trap.2 ≠ ""

/-- The session with the commands for a signal, or without. -/
def setTrap (s : Session) (number : Nat) (action : Option String) : Session :=
  let others := s.traps.filter (·.1 ≠ number)
  { s with traps := match action with
      | some text => (number, text) :: others
      | none => others }

/-- The session of a process that a shell has forked: it answers no signals with the commands of the shell and
has started no jobs. -/
def forked (s : Session) : Session :=
  { s with traps := s.traps.filter (·.2 = ""), jobs := [] }

end Session

end Fleet.Shell
