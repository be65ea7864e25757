import Fleet.CommandLine
import Fleet.Rollout
import Fleet.Text.Json

/-!
# Answers to command lines

A command line is answered with an exit code, with what is written to the output and with a message.  Hosts that
fail do not change the exit code: it is zero if the plan could be made.  The report is written for readers or, on
demand, as one JSON document, in which names are in alphabetical order; a fault is then a JSON document too.  A command
line whose rollout does not end is not answered.
-/

namespace Fleet

open Text (JsonValue)

/-- What a command line is answered with. -/
structure Reply where
  exitCode : Nat
  output : String
  /-- what was told on the way -/
  notices : List Notice
  /-- the fault, for readers -/
  message : Option String
  deriving DecidableEq, Inhabited

/-! ### reports for readers -/

def JobState.label : JobState → String
  | .pending => "pending"
  | .running => "running"
  | .succeeded => "succeeded"
  | .failed _ => "failed"

/-- The lines of a phase: its numbers, its leader and its failed jobs. -/
def PhaseReport.lines (r : PhaseReport) : List String :=
  (r.jobClass.text ++ ": " ++ toString r.successes ++ " ok, " ++ toString r.failures ++ " failed, " ++
    toString r.skipped.length ++ " skipped") ::
  (r.leader.toList.map fun l => "  leader " ++ l.host.id ++ ": " ++ l.state.label) ++
  (r.jobs.filter (!·.succeeded)).map fun j => "  " ++ j.host.id ++ " failed: " ++ j.log.text

def RunReport.render (r : RunReport) : String :=
  String.join ((("testbed: " ++ r.testbed) :: r.phases.flatMap PhaseReport.lines).map (· ++ "\n"))

/-! ### reports as documents -/

def JobState.exitCode? : JobState → Option Int
  | .failed code => code
  | _ => none

/-- A job as a JSON value; the clock gives the texts of times. -/
def JobReport.json (clock : Nat → String) (r : JobReport) : JsonValue :=
  .object [
    ("exit_code", .ofOption .number r.state.exitCode?), ("finished_at", .text (clock r.finished)),
    ("host_id", .text r.host.id), ("hostname", .text r.host.hostname),
    ("launched_at", .text (clock r.launched)), ("log", .text r.log.text),
    ("status", .text r.state.label)]

def PhaseReport.json (clock : Nat → String) (r : PhaseReport) : JsonValue :=
  .object [
    ("class", .text r.jobClass.text), ("leader", .ofOption (JobReport.json clock) r.leader),
    ("skipped", .list (r.skipped.map .text)), ("units", .list (r.jobs.map (JobReport.json clock)))]

def RunReport.json (clock : Nat → String) (r : RunReport) : JsonValue :=
  .object [
    ("failed", .number r.failures), ("phases", .list (r.phases.map (PhaseReport.json clock))),
    ("testbed", .text r.testbed)]

def RunReport.document (clock : Nat → String) (r : RunReport) : JsonValue :=
  .object [("command", .text "run"), ("ok", .bool true), ("report", r.json clock)]

/-- A fault for readers: its message, and below it once more what others said of it. -/
def Fault.render (fault : Fault) : String :=
  "Error: " ++ fault.message ++
    match fault.cause? with
    | some cause => "\n\nCaused by:" ++ String.join ((Text.split '\n' cause).map ("\n    " ++ ·))
    | none => ""

def Fault.document (fault : Fault) : JsonValue :=
  .object [("error", .object [("code", .text "run_failed"), ("message", .text fault.message)]), ("ok", .bool false)]

/-! ### replies -/

namespace Reply

/-- The name and the number of this version. -/
def version : String := "rexec 0.1.0\n"

/-- The reply to a command line that asks for no run. -/
def ofStop : Stop → Reply
  | .usage => ⟨2, "", [], some "usage: rexec [OPTIONS] --nodefile <NODEFILE>"⟩
  | .help => ⟨0, "usage: rexec [OPTIONS] --nodefile <NODEFILE>\n", [], none⟩
  | .version => ⟨0, version, [], none⟩

def ofFault (wantsJson : Bool) (fault : Fault) : Reply :=
  if wantsJson then ⟨1, fault.document.render ++ "\n", [], none⟩
  else ⟨1, "", [], some fault.render⟩

def ofReport (wantsJson : Bool) (clock : Nat → String) (report : RunReport) (notices : List Notice) : Reply :=
  ⟨0, if wantsJson then (report.document clock).render ++ "\n" else report.render, notices, none⟩

def ofRollout (wantsJson : Bool) (clock : Nat → String) (r : Rollout) : Reply :=
  match r.result with
  | .ok report => ofReport wantsJson clock report r.notices
  | .error fault => ofFault wantsJson fault

end Reply

namespace CommandLine

/-- The rollout that a command line asks for. -/
def rollOut (s : Setup) (c : CommandLine) (d : Directory) : Option Rollout :=
  match Rollout.load s.explain d c.configFile with
  | .ok config => Rollout.run s config c.request d
  | .error fault => some (.refused d fault)

/-- The words of a command line are answered, and the machine is as it is afterwards. -/
def answer (s : Setup) (words : List String) (d : Directory) : Option (Reply × Machine) :=
  match parse words with
  | .error stop => some (.ofStop stop, ⟨d, []⟩)
  | .ok c => (c.rollOut s d).map fun r => (.ofRollout c.wantsJson s.clock r, r.machine)

end CommandLine

end Fleet
