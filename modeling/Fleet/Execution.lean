import Fleet.Config.Write
import Fleet.FanOut
import Fleet.FileTree.Folder
import Fleet.Job

/-!
# Executing a job

The folders of a job and the folder of its log are ensured, the log is begun afresh with the configuration and
the command, and then the job's shell command is run, with its output going to the end of the log.  Each of these
steps may fail, and the execution with it.  What the system does beyond the file tree is a parameter: where it runs out
of room, where it cannot hand the log on, and what runs shell commands.  An execution says from where the command was
started, if it was.
-/

namespace Fleet

open Text (Bytes)

/-- What runs shell commands: with no input, and with all output going to the end of the file at the location.
A fault says that the command was not started. -/
abbrev CommandRunner := Directory → Location → String → Except SystemFault (ExitStatus × FileTree)

/-- The system that executes jobs. -/
structure System where
  /-- what ends the writing of bytes to the file at a location, and how many have been written by then -/
  shortage : Directory → Location → Bytes → Option (Nat × SystemFault)
  /-- what keeps the file at a location from being the output and the error output of a command at once -/
  withheld : Directory → Location → Option SystemFault
  runner : CommandRunner

/-- A system that has room for everything, and hands everything on. -/
def System.ofRunner (runner : CommandRunner) : System := ⟨fun _ _ _ => none, fun _ _ => none, runner⟩

/-- What an execution of a job came to. -/
structure Execution where
  directory : Directory
  /-- the files when the command was started, if it was -/
  started : Option FileTree
  answer : FanOut.Answer

namespace Execution

/-- An execution that ended with a fault before the command was started. -/
def refused (d : Directory) (fault : SystemFault) : Execution := ⟨d, none, .error (.system fault)⟩

/-- How a log begins: with the configuration and the command of the job, as it was planned. -/
def header (c : Config) (job : Job) : String := c.render ++ "\n" ++ job.command ++ "\n\n"

/-- The start of a shell command, which holds no NUL. -/
def launch (s : System) (d : Directory) (log : Location) (command : String) : Execution :=
  match s.withheld d log with
  | some fault => refused d fault
  | none =>
    if '\x00' ∈ command.toList then refused d .nulInCommand
    else
      match s.runner d log command with
      | .error fault => refused d fault
      | .ok (status, tree) => ⟨{ d with tree }, some d.tree, .ok status.outcome⟩

/-- The log, which is empty, is given its first bytes, or only some of them if the system runs out of room. -/
def fill (s : System) (d : Directory) (p : Path) (log : Location) (bytes : Bytes) :
    Directory × Except SystemFault Unit :=
  match s.shortage d log bytes with
  | some (written, fault) => ((d.write p (bytes.take written)).toOption.getD d, .error fault)
  | none =>
    match d.write p bytes with
    | .ok d => (d, .ok ())
    | .error fault => (d, .error fault)

/-- The log is begun, and the command of the job is started. -/
def record (s : System) (c : Config) (job : Job) (d : Directory) : Execution :=
  match d.writable job.log, d.write job.log [] with
  | .ok log, .ok d =>
    match fill s d job.log log (Text.bytes (header c job)) with
    | (d, .ok ()) => launch s d log (job.shellCommand c.common.access c.common.loginShell)
    | (d, .error fault) => refused d fault
  | .error fault, _ | _, .error fault => refused d fault

def execute (s : System) (c : Config) (job : Job) (d : Directory) : Execution :=
  match d.ensureFolders job.folders with
  | (d, .error fault) => refused d fault
  | (d, .ok ()) =>
    match d.ensureParent job.log with
    | (d, .error fault) => refused d fault
    | (d, .ok ()) => record s c job d

end Execution

end Fleet
