import Fleet.Phase

/-!
# Reports

What became of a run: for every phase, the leader's command and every job, each with its state and its
times.  A failed job's fault tells of its host, and is never fatal.
-/

namespace Fleet

/-- How far a job has come. -/
inductive JobState where
  | pending
  | running
  | succeeded
  /-- no exit code means that the command was ended by a signal, or never ran -/
  | failed (exitCode : Option Int)
  deriving DecidableEq, Inhabited

/-- The state of a job whose command has ended. -/
def Outcome.state : Outcome → JobState
  | .succeeded => .succeeded
  | .failed exitCode => .failed exitCode

@[simp] theorem Outcome.state_succeeded : Outcome.succeeded.state = .succeeded := rfl

@[simp] theorem Outcome.state_failed (exitCode : Option Int) : (Outcome.failed exitCode).state = .failed exitCode := rfl

namespace JobState

/-- Whether the job has come to its end. -/
def isTerminal : JobState → Bool
  | .succeeded | .failed _ => true
  | .pending | .running => false

/-- The fault that a state is for a job of a class on a host. -/
def fault? (state : JobState) (jobClass : JobClass) (id : String) : Option Fault :=
  match state, jobClass with
  | .failed _, .sync => some (.syncFailed id)
  | .failed exitCode, _ => some (.commandFailed id exitCode)
  | _, _ => none

theorem isTerminal_state (outcome : Outcome) : outcome.state.isTerminal = true := by
  cases outcome <;> rfl

end JobState

/-- What became of a job. -/
structure JobReport where
  host : Host
  jobClass : JobClass
  log : Path
  state : JobState
  launched : Nat
  finished : Nat
  deriving DecidableEq, Inhabited

namespace JobReport

def ofJob (job : Job) (state : JobState) (launched finished : Nat) : JobReport :=
  ⟨job.host, job.jobClass, job.log, state, launched, finished⟩

def succeeded (r : JobReport) : Bool := r.state = .succeeded

def fault? (r : JobReport) : Option Fault := r.state.fault? r.jobClass r.host.id

end JobReport

/-- What became of a phase. -/
structure PhaseReport where
  jobClass : JobClass
  leader : Option JobReport
  jobs : List JobReport
  skipped : List String
  deriving DecidableEq, Inhabited

namespace PhaseReport

/-- The reports of all executions, the leader's first. -/
def all (r : PhaseReport) : List JobReport := r.leader.toList ++ r.jobs

/-- How many jobs failed, the leader's command included. -/
def failures (r : PhaseReport) : Nat := r.all.countP (!·.succeeded)

/-- How many jobs succeeded, the leader's command not included. -/
def successes (r : PhaseReport) : Nat := r.jobs.countP (·.succeeded)

end PhaseReport

/-- What became of a run. -/
structure RunReport where
  testbed : String
  phases : List PhaseReport
  deriving DecidableEq, Inhabited

/-- How many executions of a run failed. -/
def RunReport.failures (r : RunReport) : Nat := r.phases.foldr (fun p n => p.failures + n) 0

end Fleet
