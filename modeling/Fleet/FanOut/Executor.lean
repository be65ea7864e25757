import Fleet.FanOut.Run

/-!
# Executors

An executor works on a world: it begins the executions of jobs, says when they have ended, and tries ports.
Given one, a run is carried out move by move, always with the first possible one of these: what the dispatcher
does next, a started thread that begins, a running one that has ended, and at last the clock.  Each move is one
that the run allows.
-/

namespace Fleet.FanOut

/-- What executes the jobs of a run, in a world of its own. -/
structure Executor (World : Type) where
  /-- an execution begins at a time -/
  begin : Nat → Slot → Job → World → World
  /-- how an execution has ended, if it has ended by a time -/
  poll : Nat → Slot → Job → World → Option (Ending × World)
  /-- whether a port of a host accepts connections at a time -/
  accepts : Nat → String → UInt16 → World → Bool
  /-- the next time at which the world may have changed -/
  wake : Nat → World → Option Nat

namespace Executor

variable {World : Type}

/-- The answer that the end of a leader's command counts as. -/
def leaderAnswer : Ending → Answer
  | .answered answer => answer
  | .died => .ok (.failed none)

/-- The first thread that has been started and not begun. -/
def nextStart? (p : Phase) (s : State) : Option (Nat × Job) :=
  (p.jobs.zip s.threads).zipIdx.findSome? fun x =>
    match x.1.2 with
    | .spawned => some (x.2, x.1.1)
    | _ => none

/-- The first running thread that has ended. -/
def nextFinish? (x : Executor World) (p : Phase) (s : State) (w : World) : Option (Move × World) :=
  (p.jobs.zip s.threads).zipIdx.findSome? fun y =>
    match y.1.2 with
    | .running _ => (x.poll s.now (.job y.2) y.1.1 w).map fun (ending, w) => (.finish y.2 ending, w)
    | _ => none

def threadMove? (x : Executor World) (p : Phase) (s : State) (w : World) : Option (Move × World) :=
  match nextStart? p s with
  | some (i, job) => some (.start i, x.begin s.now (.job i) job w)
  | none => x.nextFinish? p s w

def dispatcherMove? (x : Executor World) (p : Phase) (s : State) (w : World) : Option (Move × World) :=
  match s.stage, p.leader with
  | .opening, some step => some (.beginLeader, x.begin s.now .leader step.job w)
  | .leading _, some step =>
    (x.poll s.now .leader step.job w).map fun (ending, w) => (.endLeader (leaderAnswer ending), w)
  | .ownJobs _, _ | .otherJobs _, _ => some (.spawn, w)
  | .probing time, some step =>
    if s.now < time then none
    else
      let hostname := step.job.host.hostname
      step.barrier.port.map fun port => (.probe hostname port (x.accepts s.now hostname port w), w)
  | .resting since, some step =>
    if s.now < since + step.barrier.delay.toNat then none else some (.release, w)
  | .joining (i :: _), _ =>
    match s.threads[i]? with
    | some (.ended ..) => some (.join, w)
    | _ => none
  | _, _ => none

/-- When the dispatcher goes on by itself. -/
def dispatcherWake? (p : Phase) (s : State) : Option Nat :=
  match s.stage, p.leader with
  | .probing time, _ => some time
  | .resting since, some step => some (since + step.barrier.delay.toNat)
  | _, _ => none

/-- The clock going on to the next time at which anything may happen, or by one millisecond. -/
def clockMove (x : Executor World) (p : Phase) (s : State) (w : World) : Move :=
  let times := ((dispatcherWake? p s).toList ++ (x.wake s.now w).toList).filter (s.now < ·)
  .tick ((times.min?.getD (s.now + 1)) - s.now)

def phaseMove (x : Executor World) (p : Phase) (s : State) (w : World) : Move × World :=
  match x.dispatcherMove? p s w with
  | some m => m
  | none => (x.threadMove? p s w).getD (x.clockMove p s w, w)

def runMove (x : Executor World) (r : Run) (w : World) : RunMove × World :=
  match r.current with
  | none => (.open, w)
  | some (p, s) =>
    match s.stage with
    | .closed => (.close, w)
    | _ =>
      let (m, w) := x.phaseMove p s w
      (.inPhase m, w)

/-- The run and the world when all phases are over, or after so many moves. -/
def carryOut (x : Executor World) : Nat → Run → World → Run × World
  | 0, r, w => (r, w)
  | fuel + 1, r, w =>
    if r.isOver then (r, w)
    else
      let (m, w) := x.runMove r w
      match r.apply m with
      | some r => x.carryOut fuel r w
      | none => (r, w)

theorem reaches_carryOut (x : Executor World) (fuel : Nat) (r s : Run) (w : World)
    (h : Run.Reaches r s) : Run.Reaches r (x.carryOut fuel s w).1 := by
  induction fuel generalizing s w with
  | zero => exact h
  | succ fuel ih =>
    unfold carryOut
    split
    · exact h
    · cases hm : x.runMove s w with
      | mk m w' =>
        cases hs : s.apply m with
        | none => simpa only [hs] using h
        | some t => simpa only [hs] using ih t w' (.step m h hs)

end Executor

end Fleet.FanOut
