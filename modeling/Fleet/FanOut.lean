import Fleet.Notice
import Fleet.Report

/-!
# Fanning a phase out

One thread, the dispatcher, takes a phase through its stages.  It runs the leader's command, starts a thread for
each job of the leader's host, waits for the leader's port and then for the delay, starts a thread for each other
job, and joins all threads in the order in which it started them.  Without a leader step it starts all threads at
once.  Meanwhile every started thread executes its job in its own time.

A state says where the dispatcher and the threads are, and a move is what one of them does next, or the clock
going on.  What an execution comes to is part of the move that ends it, so the moves allow for every executor, and
sequences of moves for every interleaving.
-/

namespace Fleet.FanOut

/-! ### executions -/

/-- What an executor answers: an outcome, or the fault that kept it from executing the job. -/
abbrev Answer := Except Fault Outcome

def stateOf : Answer → JobState
  | .ok outcome => outcome.state
  | .error _ => .failed none

/-- How a thread ends: with the executor's answer, or by dying on the way. -/
inductive Ending where
  | answered (answer : Answer)
  | died

def Ending.state : Ending → JobState
  | .answered answer => stateOf answer
  | .died => .failed none

/-- What is told about an executor's answer for a job. -/
def answerNotices (job : Job) (answer : Answer) : List Notice :=
  (match answer with
    | .ok _ => []
    | .error fault => [.notExecuted job.host.id fault]) ++
  ((stateOf answer).fault? job.jobClass job.host.id).toList.map fun fault => .jobFailed fault job.log

/-- What a thread tells when it ends; one that dies tells nothing. -/
def Ending.notices (job : Job) : Ending → List Notice
  | .answered answer => answerNotices job answer
  | .died => []

/-! ### states -/

/-- Where the thread of a job is. -/
inductive Thread where
  /-- it has not been started -/
  | waiting
  /-- it has been started and does not execute the job yet -/
  | spawned
  | running (start : Nat)
  | ended (start stop : Nat) (ending : Ending)
  deriving Inhabited

/-- Where the dispatcher is.  Jobs are named by their positions in the phase. -/
inductive Stage where
  /-- the leader's command is next -/
  | opening
  /-- the leader's command runs -/
  | leading (start : Nat)
  /-- the jobs of the leader's host are next -/
  | ownJobs (todo : List Nat)
  /-- the leader's port is tried, next at the given time -/
  | probing (time : Nat)
  /-- the delay runs -/
  | resting (since : Nat)
  /-- the other jobs are next -/
  | otherJobs (todo : List Nat)
  | joining (todo : List Nat)
  | closed

/-- Joining threads; without any the phase is over. -/
def Stage.joinAll : List Nat → Stage
  | [] => .closed
  | todo => .joining todo

/-- Starting other jobs; without any the threads that have been started are joined. -/
def Stage.others (handles : List Nat) : List Nat → Stage
  | [] => .joinAll handles
  | todo => .otherJobs todo

/-- One execution of a phase. -/
inductive Slot where
  | leader
  | job (position : Nat)
  deriving DecidableEq, Inhabited

/-- What has happened, and when. -/
inductive Event where
  /-- the executor is called with a job -/
  | began (slot : Slot) (job : Job) (time : Nat)
  | ended (slot : Slot) (ending : Ending) (time : Nat)
  /-- the thread of a job is started -/
  | spawned (position : Nat) (time : Nat)
  /-- the leader's port is tried -/
  | probed (hostname : String) (port : UInt16) (accepted : Bool) (time : Nat)
  /-- the delay begins -/
  | rested (time : Nat)

/-- Where everything is. -/
structure State where
  /-- the time in milliseconds -/
  now : Nat
  stage : Stage
  /-- the report of the leader's command, when it has ended -/
  leader : Option JobReport
  threads : List Thread
  /-- the positions whose threads have been started, in this order -/
  handles : List Nat
  /-- the reports of the threads that have been joined, at the positions of their jobs -/
  reports : List (Option JobReport)
  /-- what has happened so far -/
  events : List Event
  /-- what has been told so far -/
  notices : List Notice

/-! ### the order of jobs -/

/-- Whether a job is for the host of the leader step. -/
def isOwn (p : Phase) (job : Job) : Bool :=
  p.leader.any fun step => job.host.id == step.job.host.id

/-- The positions of the jobs that do not wait at the barrier. -/
def ownJobs (p : Phase) : List Nat :=
  (p.jobs.zipIdx.filter fun x => isOwn p x.1).map (·.2)

def otherJobs (p : Phase) : List Nat :=
  (p.jobs.zipIdx.filter fun x => !isOwn p x.1).map (·.2)

/-! ### moves -/

/-- How long the dispatcher waits, in milliseconds, before it tries the leader's port again. -/
def probeInterval : Nat := 200

/-- What happens next. -/
inductive Move where
  /-- the clock goes on -/
  | tick (ms : Nat)
  | beginLeader
  | endLeader (answer : Answer)
  /-- the dispatcher starts the next thread -/
  | spawn
  /-- the dispatcher tries the leader's port -/
  | probe (hostname : String) (port : UInt16) (accepted : Bool)
  /-- the delay is over -/
  | release
  /-- the dispatcher joins the next thread -/
  | join
  /-- the thread of a job begins to execute it -/
  | start (position : Nat)
  /-- the thread of a job ends -/
  | finish (position : Nat) (ending : Ending)

namespace State

def tell (s : State) (notices : List Notice) : State :=
  { s with notices := s.notices ++ notices }

def note (s : State) (e : Event) : State :=
  { s with events := s.events ++ [e] }

def goTo (s : State) (stage : Stage) : State := { s with stage }

def rest (s : State) : State := (s.note (.rested s.now)).goTo (.resting s.now)

/-- The barrier behind the jobs of the leader's host. -/
def enterBarrier (s : State) (step : LeaderStep) : State :=
  match step.barrier.port with
  | some port => (s.tell [.waitingForLeader step.job.host.hostname port]).goTo (.probing s.now)
  | none => s.rest

/-- The dispatcher with jobs of the leader's host to start; without any it goes on to the barrier. -/
def enterOwnJobs (p : Phase) (s : State) (todo : List Nat) : State :=
  match todo, p.leader with
  | [], some step => s.enterBarrier step
  | _, _ => s.goTo (.ownJobs todo)

/-- The dispatcher with other jobs to start; without any it goes on to join what it has started. -/
def enterOtherJobs (s : State) (todo : List Nat) : State := s.goTo (.others s.handles todo)

def blank (p : Phase) (now : Nat) : State :=
  { now, stage := .opening, leader := none, threads := p.jobs.map fun _ => .waiting
    handles := [], reports := p.jobs.map fun _ => none, events := [], notices := [] }

/-- The beginning of a phase at a time. -/
def initial (p : Phase) (now : Nat) : State :=
  match p.leader with
  | some _ => blank p now
  | none => (blank p now).enterOtherJobs (otherJobs p)

def setThread (s : State) (position : Nat) (t : Thread) : State :=
  { s with threads := s.threads.set position t }

def spawnThread (s : State) (position : Nat) : State :=
  let s := (s.setThread position .spawned).note (.spawned position s.now)
  { s with handles := s.handles ++ [position] }

def beginLeader (p : Phase) (s : State) : Option State :=
  match s.stage, p.leader with
  | .opening, some step =>
    some (((s.note (.began .leader step.job s.now)).tell [.runningLeader step.job.host.id]).goTo (.leading s.now))
  | _, _ => none

def endLeader (p : Phase) (s : State) (answer : Answer) : Option State :=
  match s.stage, p.leader with
  | .leading start, some step =>
    let s := (s.note (.ended .leader (.answered answer) s.now)).tell (answerNotices step.job answer)
    let s := { s with leader := some (.ofJob step.job (stateOf answer) start s.now) }
    some (s.enterOwnJobs p (ownJobs p))
  | _, _ => none

def spawn (p : Phase) (s : State) : Option State :=
  match s.stage with
  | .ownJobs (i :: rest) => some ((s.spawnThread i).enterOwnJobs p rest)
  | .otherJobs (i :: rest) => some ((s.spawnThread i).enterOtherJobs rest)
  | _ => none

/-- The dispatcher tries the leader's port and nothing else, not before the time for it. -/
def probe (p : Phase) (s : State) (hostname : String) (port : UInt16) (accepted : Bool) : Option State :=
  match s.stage, p.leader with
  | .probing time, some step =>
    if time ≤ s.now ∧ step.job.host.hostname = hostname ∧ step.barrier.port = some port then
      let s := s.note (.probed hostname port accepted s.now)
      some (if accepted then s.rest else s.goTo (.probing (s.now + probeInterval)))
    else none
  | _, _ => none

def release (p : Phase) (s : State) : Option State :=
  match s.stage, p.leader with
  | .resting since, some step =>
    if s.now < since + step.barrier.delay.toNat then none
    else some (s.enterOtherJobs (otherJobs p))
  | _, _ => none

/-- What joining a thread at a time gives, if the thread has ended: the report of its job, and what is told.
A thread that has died has left no report, so its job is reported as of the joining. -/
def joinedReport (now : Nat) (job : Job) : Thread → Option (JobReport × List Notice)
  | .ended start stop (.answered answer) => some (.ofJob job (stateOf answer) start stop, [])
  | .ended _ _ .died => some (.ofJob job (.failed none) now now, [.threadDied job.host.id])
  | _ => none

/-- The dispatcher joins the next thread, which must have ended. -/
def join (p : Phase) (s : State) : Option State :=
  match s.stage with
  | .joining (i :: rest) =>
    match s.threads[i]?, p.jobs[i]? with
    | some thread, some job =>
      (joinedReport s.now job thread).map fun (report, notices) =>
        ({ s with reports := s.reports.set i (some report) }.tell notices).goTo (.joinAll rest)
    | _, _ => none
  | _ => none

/-- A started thread begins to execute its job. -/
def start (p : Phase) (s : State) (position : Nat) : Option State :=
  match s.threads[position]?, p.jobs[position]? with
  | some .spawned, some job =>
    some ((s.setThread position (.running s.now)).note (.began (.job position) job s.now))
  | _, _ => none

def finish (p : Phase) (s : State) (position : Nat) (ending : Ending) : Option State :=
  match s.threads[position]?, p.jobs[position]? with
  | some (.running start), some job =>
    some (((s.setThread position (.ended start s.now ending)).note
      (.ended (.job position) ending s.now)).tell (ending.notices job))
  | _, _ => none

def apply (p : Phase) (s : State) : Move → Option State
  | .tick ms => some { s with now := s.now + ms }
  | .beginLeader => s.beginLeader p
  | .endLeader answer => s.endLeader p answer
  | .spawn => s.spawn p
  | .probe hostname port accepted => s.probe p hostname port accepted
  | .release => s.release p
  | .join => s.join p
  | .start position => s.start p position
  | .finish position ending => s.finish p position ending

/-- The states that moves lead to. -/
inductive Reaches (p : Phase) : State → State → Prop where
  | refl (s : State) : Reaches p s s
  | step {s t u : State} (m : Move) : Reaches p s t → apply p t m = some u → Reaches p s u

/-! ### the report -/

/-- The report of a phase: of the leader's command and of every joined thread, in the order of the jobs. -/
def report (p : Phase) (s : State) : PhaseReport :=
  { jobClass := p.jobClass
    leader := s.leader
    jobs := s.reports.filterMap id
    skipped := p.skipped }

end State

end Fleet.FanOut
