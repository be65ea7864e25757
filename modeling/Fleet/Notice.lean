import Fleet.Fault
import Fleet.JobClass

/-!
# Notices

What a run tells its user on the way, each with its level.
-/

namespace Fleet

/-- What a run tells its user. -/
inductive Notice where
  | noDefaultArguments (experiment : String)
  | leaderNotActive (leader : String)
  | dispatching (jobClass : JobClass) (count : Nat)
  | tally (jobClass : JobClass) (successes failures : Nat)
  | runningLeader (id : String)
  | waitingForLeader (hostname : String) (port : UInt16)
  /-- the command for a host could not be executed -/
  | notExecuted (id : String) (fault : Fault)
  /-- a command failed; its log tells more -/
  | jobFailed (fault : Fault) (log : Path)
  /-- the thread that executed a command has died -/
  | threadDied (id : String)
  deriving DecidableEq

namespace Notice

/-- How grave a notice is. -/
inductive Level where
  | info
  | warning
  | error
  deriving DecidableEq

def Level.text : Level → String
  | .info => "INFO"
  | .warning => "WARN"
  | .error => "ERROR"

def level : Notice → Level
  | .noDefaultArguments _ | .leaderNotActive _ => .warning
  | .dispatching .. | .tally .. | .runningLeader _ | .waitingForLeader .. => .info
  | .notExecuted .. | .jobFailed _ _ | .threadDied _ => .error

def message : Notice → String
  | .noDefaultArguments experiment => "no default arguments configured for experiment " ++ experiment
  | .leaderNotActive leader => "leader " ++ leader ++ " is not among the active hosts"
  | .dispatching jobClass count => jobClass.text ++ ": dispatching to " ++ toString count ++ " hosts"
  | .tally jobClass successes failures =>
    jobClass.text ++ ": " ++ toString successes ++ " succeeded, " ++ toString failures ++ " failed"
  | .runningLeader id => "running leader command on " ++ id
  | .waitingForLeader hostname port =>
    "waiting for leader " ++ hostname ++ ":" ++ toString port.toNat ++ " to accept connections"
  | .notExecuted _ fault => "failed to execute: " ++ fault.message
  | .jobFailed fault log => fault.message ++ "; check logs: " ++ log.text
  | .threadDied id => "execution thread for " ++ id ++ " panicked"

def line (n : Notice) : String := n.level.text ++ " " ++ n.message

end Notice

end Fleet
