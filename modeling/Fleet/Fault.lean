import Fleet.Path

/-!
# Faults

What can go wrong, each with its cause, and one function for the wording.  A fault is fatal unless it
tells of one host: commands that fail on a host do not end a run.
-/

namespace Fleet

/-- Why a line of a node file is refused. -/
inductive LineFault where
  /-- the line does not have three fields -/
  | fieldCount (found : Nat)
  /-- the line has three fields, one of them blank -/
  | emptyField
  /-- a reason in words -/
  | described (reason : String)
  deriving DecidableEq

/-- Why an argument override is refused. -/
inductive OverrideFault where
  | noEquals
  | emptyKey
  /-- the argument is a boolean and the given text is not one -/
  | notBoolean
  /-- a reason in words -/
  | described (reason : String)
  deriving DecidableEq

/-- Why the requested run makes no sense. -/
inductive RequestFault where
  | overridesWithoutExperiment
  | syncWithoutSection
  | dataWithoutExperiment
  | dataWithoutSection
  /-- an argument name is a sequence, a mapping or tagged -/
  | argumentName (experiment : String)
  /-- an argument's value is a sequence, a mapping or tagged -/
  | argumentValue (key experiment : String)
  /-- a reason in words -/
  | described (reason : String)
  deriving DecidableEq

/-- What the operating system refuses. -/
inductive SystemFault where
  | notFound
  | alreadyExists
  | notDirectory
  | isDirectory
  | nameTooLong
  | noSpace
  /-- a file read as text is not UTF-8 -/
  | notText
  /-- a file name holds the character NUL -/
  | nulInName
  /-- a command holds the character NUL -/
  | nulInCommand
  /-- a reason in words -/
  | described (reason : String)
  deriving DecidableEq

/-- What can go wrong. -/
inductive Fault where
  | malformedNodeFile (path : Path) (line : Nat) (reason : LineFault)
  | unknownNodeType (id nodeType : String)
  | missingExperimentConfig (experiment key : String)
  | invalidOverride (raw : String) (reason : OverrideFault)
  | invalidRequest (reason : RequestFault)
  /-- no exit code means that a signal ended the command -/
  | commandFailed (host : String) (exitCode : Option Int)
  | syncFailed (host : String)
  /-- the reason is the decoder's -/
  | unreadableConfig (path : Path) (reason : String)
  | system (reason : SystemFault)
  deriving DecidableEq

/-! ### wording -/

def LineFault.message : LineFault → String
  | .fieldCount found => "expected 3 comma separated fields, found " ++ toString found
  | .emptyField => "empty field"
  | .described reason => reason

def OverrideFault.message : OverrideFault → String
  | .noEquals => "expected key=value"
  | .emptyKey => "key cannot be empty"
  | .notBoolean => "expected a boolean"
  | .described reason => reason

def RequestFault.message : RequestFault → String
  | .overridesWithoutExperiment => "--exp-args requires --exp"
  | .syncWithoutSection => "--sync requires a \x60sync\x60 section in the config"
  | .dataWithoutExperiment => "provide the experiment name of the retrieved data with --exp"
  | .dataWithoutSection => "--get-data requires a \x60get_data\x60 section in the config"
  | .argumentName experiment => "experiment '" ++ experiment ++ "' has a non-scalar argument name"
  | .argumentValue key experiment =>
    "argument '" ++ key ++ "' of experiment '" ++ experiment ++ "' must be a scalar"
  | .described reason => reason

/-- The operating system's wording, with its number. -/
def SystemFault.message : SystemFault → String
  | .notFound => "No such file or directory (os error 2)"
  | .alreadyExists => "File exists (os error 17)"
  | .notDirectory => "Not a directory (os error 20)"
  | .isDirectory => "Is a directory (os error 21)"
  | .nameTooLong => "File name too long (os error 36)"
  | .noSpace => "No space left on device (os error 28)"
  | .notText => "stream did not contain valid UTF-8"
  | .nulInName => "file name contained an unexpected NUL byte"
  | .nulInCommand => "nul byte found in provided data"
  | .described reason => reason

/-- How an exit code is told; none means that a signal ended the command. -/
def exitLabel : Option Int → String
  | some code => toString code
  | none => "signal"

def Fault.message : Fault → String
  | .malformedNodeFile path line reason =>
    "malformed node file " ++ path.text ++ ":" ++ toString line ++ ": " ++ reason.message
  | .unknownNodeType id nodeType => "unknown node type '" ++ nodeType ++ "' for node '" ++ id ++ "'"
  | .missingExperimentConfig experiment key =>
    "missing experiment config for '" ++ experiment ++ "': " ++ key
  | .invalidOverride raw reason =>
    "invalid experiment argument override '" ++ raw ++ "': " ++ reason.message
  | .invalidRequest reason => "invalid invocation: " ++ reason.message
  | .commandFailed host exitCode =>
    "command failed on host " ++ host ++ " (exit code: " ++ exitLabel exitCode ++ ")"
  | .syncFailed host => "sync failed for host " ++ host
  | .unreadableConfig path reason => "failed to read config " ++ path.text ++ ": " ++ reason
  | .system reason => reason.message

/-- The words of another that a fault passes on. -/
def Fault.cause? : Fault → Option String
  | .unreadableConfig _ reason => some reason
  | _ => none

/-! ### severity -/

/-- Whether a fault ends the run; what happened on one host does not. -/
def Fault.isFatal : Fault → Bool
  | .commandFailed .. | .syncFailed .. => false
  | _ => true

end Fleet
