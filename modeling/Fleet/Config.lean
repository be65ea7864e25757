import Fleet.Arguments
import Fleet.Fault
import Fleet.Table
import Fleet.Transfer

/-!
# Configurations

What a user keeps in a file: how hosts are reached, where logs go, which files to send and where to keep
fetched ones, the domains of node types, and the experiments with their programs and arguments.
-/

namespace Fleet

/-- How hosts are reached, and where logs go. -/
structure CommonSection where
  access : Access
  /-- the shell that runs a command on a host -/
  loginShell : String
  logDirectory : Path
  deriving DecidableEq

/-- An experiment: a program that runs on every host, and what its leader does. -/
structure Experiment where
  binDirectory : Option String
  bin : Option String
  leader : Option String
  leaderCommand : Option String
  /-- how many milliseconds the other hosts wait after the leader's command -/
  leaderDelay : Option UInt64
  /-- the port on which the leader accepts connections before the others start -/
  leaderPort : Option UInt16
  args : Option Arguments
  leaderArgs : Arguments
  deriving Inhabited

/-- A configuration. -/
structure Config where
  common : CommonSection
  sync : Option SyncSection
  /-- where fetched files are kept -/
  dataDirectory : Option Path
  domains : Table String
  experiments : Table Experiment

namespace Config

/-- The command that reaches a host, unless the configuration says otherwise. -/
def defaultSsh : String := "ssh"

/-- The shell on a host, unless the configuration says otherwise. -/
def defaultLoginShell : String := "bash -l"

/-- Where logs go, unless the configuration says otherwise. -/
def defaultLogDirectory : Path := ⟨"logs"⟩

/-- How many milliseconds hosts wait for a leader, unless the configuration says otherwise. -/
def defaultLeaderDelay : UInt64 := 2000

/-- The fault of asking for an experiment, or for a part of it, that is not configured. -/
def missing (experiment : String) (part : Option String) : Fault :=
  .missingExperimentConfig experiment
    ("experiments." ++ experiment ++
      match part with
      | some name => "." ++ name
      | none => "")

def experiment (c : Config) (name : String) : Except Fault Experiment :=
  match c.experiments.get? name with
  | some e => .ok e
  | none => .error (missing name none)

end Config

end Fleet
