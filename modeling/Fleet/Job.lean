import Fleet.JobClass
import Fleet.Roster
import Fleet.Transfer

/-!
# Jobs

A job is one command for one host, with the log it writes and the directories it needs.  It runs on this
machine or, wrapped into a remote shell, on the host.
-/

namespace Fleet

/-- Where a command runs. -/
inductive Place where
  /-- on the machine that sends the commands out -/
  | control
  /-- on the host -/
  | host
  deriving DecidableEq, Inhabited

/-- One command for one host. -/
structure Job where
  host : Host
  jobClass : JobClass
  place : Place
  command : String
  log : Path
  /-- directories on this machine that must be there -/
  folders : List Path
  deriving DecidableEq, Inhabited

/-- How a command ended. -/
inductive Outcome where
  | succeeded
  /-- no exit code means that it was ended by a signal, or never ran -/
  | failed (exitCode : Option Int)
  deriving DecidableEq, Inhabited

/-- How a process ends. -/
inductive ExitStatus where
  | exited (code : Nat)
  | killed (signal : Nat)
  deriving DecidableEq, Inhabited

/-- The outcome that the end of a job's shell is. -/
def ExitStatus.outcome : ExitStatus → Outcome
  | .exited 0 => .succeeded
  | .exited code => .failed (some code)
  | .killed _ => .failed none

/-- The shell command that runs a command on a host.  The command is put in verbatim: a double quote in it
ends the inner quotes, and a single quote the outer ones. -/
def Access.shellCommand (access : Access) (hostname loginShell command : String) : String :=
  access.ssh ++ " " ++ access.user ++ "@" ++ hostname ++ " '" ++ loginShell ++ " -c \"" ++ command ++ "\"'"

def Job.shellCommand (access : Access) (loginShell : String) (job : Job) : String :=
  match job.place with
  | .control => job.command
  | .host => access.shellCommand job.host.hostname loginShell job.command

end Fleet
