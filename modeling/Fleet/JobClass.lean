/-!
# Classes of jobs

Every command is sent out for one of five reasons.  The class names a directory of the logs, so an
experiment's class is written as the experiment's name.
-/

namespace Fleet

/-- Why a command is sent to a host. -/
inductive JobClass where
  /-- sends local files to the host -/
  | sync
  /-- fetches result files from the host -/
  | data
  /-- a command given by the user -/
  | command
  /-- the command that the leader of an experiment runs before anything else -/
  | leader
  /-- one host's part in an experiment -/
  | experiment (name : String)
  deriving DecidableEq, Inhabited

def JobClass.text : JobClass → String
  | .sync => "sync"
  | .data => "data"
  | .command => "cmd"
  | .leader => "leader"
  | .experiment name => name

end Fleet
