import Fleet.Proofs.FanOut.Finishing
import Fleet.Proofs.FanOut.Sequence
import Fleet.Rollout

/-!
# Rollouts and their runs

A rollout that ends is a run of its plan that moves lead to and that is over, on a machine that has been given the jobs
that the executor was called with (`ofPlan_eq_some`).  It does not end just if the port that some phase waits for never
opens (`ofPlan_eq_none`).

That the machine and the run agree on what was executed is kept move by move: what a move adds to the calls of a run
(`Move.called`) is what it adds to the record of an executor that keeps one (`Executor.Records`).
-/

namespace Fleet

open FanOut State

namespace FanOut

/-! ### what the executor is called with -/

section Phase

variable {p : Phase} {s t : State} {m : Move}

def Move.called (p : Phase) : Move → List Job
  | .beginLeader => p.leader.toList.map (·.job)
  | .start i => p.jobs[i]?.toList
  | _ => []

def State.called (s : State) : List Job := (calls s.events).map (·.2)

theorem called_of_events (new : List Event) (h : t.events = s.events ++ new) :
    t.called = s.called ++ (calls new).map (·.2) := by
  rw [State.called, h, calls, List.filterMap_append, List.map_append]
  rfl

theorem called_eq_of_events (h : t.events = s.events) : t.called = s.called ++ [] := by
  rw [State.called, h, List.append_nil]
  rfl

theorem called_rest (s : State) : s.rest.called = s.called :=
  (called_of_events [.rested s.now] rfl).trans (List.append_nil _)

theorem called_enterOwnJobs (s : State) (todo : List Nat) : (s.enterOwnJobs p todo).called = s.called := by
  unfold State.enterOwnJobs
  split
  · unfold State.enterBarrier
    split
    · rfl
    · exact called_rest s
  · rfl

theorem Step.called (h : Step p s m t) : t.called = s.called ++ m.called p := by
  cases h with
  | tick ms => exact called_eq_of_events rfl
  | @beginLeader step hstage hleader =>
    rw [Move.called, hleader]
    exact called_of_events [.began .leader step.job s.now] rfl
  | @endLeader step start answer hstage hleader =>
    rw [called_enterOwnJobs]
    exact called_of_events [.ended .leader (.answered answer) s.now] rfl
  | @spawnOwn i rest hstage =>
    rw [called_enterOwnJobs]
    exact called_of_events [.spawned i s.now] rfl
  | @spawnOther i rest hstage => exact called_of_events [.spawned i s.now] rfl
  | @probeRefused step port time hstage hleader hport htime =>
    exact called_of_events [.probed step.job.host.hostname port false s.now] rfl
  | @probeAccepted step port time hstage hleader hport htime =>
    rw [called_rest]
    exact called_of_events [.probed step.job.host.hostname port true s.now] rfl
  | release hstage hleader htime => exact called_eq_of_events rfl
  | join hstage hthread hjob hreport => exact called_eq_of_events rfl
  | @start i job hthread hjob =>
    rw [Move.called, hjob]
    exact called_of_events [.began (.job i) job s.now] rfl
  | @finish i start job ending hthread hjob => exact called_of_events [.ended (.job i) ending s.now] rfl

theorem called_initial (p : Phase) (now : Nat) : (State.initial p now).called = [] := by
  rw [State.called, initial_events]
  rfl

end Phase

section Run

variable {phases : List Phase} {r t : Run} {m : RunMove}

/-- The job with which a move of a run calls the executor. -/
def RunMove.called (r : Run) : RunMove → List Job
  | .inPhase m => r.current.toList.flatMap fun x => m.called x.1
  | _ => []

/-- The jobs with which the executor has been called, phase by phase and in the order of the calls. -/
def Run.called (r : Run) : List Job := r.begun.flatMap (·.2.called)

theorem RunStep.called (h : RunStep r m t) : t.called = r.called ++ m.called r := by
  cases h with
  | @«open» p rest hcurrent hfuture =>
    simp [Run.called, Run.begun, RunMove.called, hcurrent, called_initial]
  | @inPhase p s s' m hcurrent hstep =>
    simp [Run.called, Run.begun, RunMove.called, hcurrent, hstep.called]
  | @close p s hcurrent hstage => simp [Run.called, Run.begun, RunMove.called, hcurrent]

/-- The jobs of phases, the leaders' commands among them. -/
def jobsOf (phases : List Phase) : List Job := phases.flatMap fun p => (tasks p).map (·.2)

theorem Run.InOrder.called_perm (h : InOrder phases r) (hover : r.isOver = true) : r.called.Perm (jobsOf phases) := by
  obtain ⟨hbegun, hphases⟩ := h.finished hover
  rw [Run.called, jobsOf, ← hphases, List.flatMap_map, hbegun]
  refine .flatMap_left _ fun x hx => ?_
  exact ((h.ledger (hbegun ▸ hx)).closed_calls (h.past_closed x hx)).map _

end Run

/-! ### executors that keep a record -/

namespace Executor

variable {World : Type} {x : Executor World} {log : World → List Job} {p : Phase} {s : State} {m : Move}
  {w w' : World} {opening : Phase → Nat} {r : Run}

/-- The world has a record of the jobs that the executor is called with, in the order of the calls. -/
structure Records (x : Executor World) (log : World → List Job) : Prop where
  begin : ∀ now slot job w, log (x.begin now slot job w) = log w ++ [job]
  poll : ∀ now slot job w ending w', x.poll now slot job w = some (ending, w') → log w' = log w

namespace Records

theorem uncalled (hlog : log w' = log w) (hm : m.called p = []) : log w' = log w ++ m.called p := by
  rw [hlog, hm, List.append_nil]

theorem threadMove? (h : x.Records log) (hmove : x.threadMove? p s w = some (m, w')) :
    log w' = log w ++ m.called p := by
  unfold Executor.threadMove? at hmove
  split at hmove
  · rename_i i job hstart
    obtain ⟨rfl, rfl⟩ := Prod.mk.inj (Option.some.inj hmove)
    obtain ⟨⟨⟨job', thread⟩, i'⟩, hmem, hfound⟩ := List.exists_of_findSome?_eq_some hstart
    cases thread with
    | spawned =>
      obtain ⟨rfl, rfl⟩ := Prod.mk.inj (Option.some.inj hfound)
      rw [h.begin, Move.called, (mem_threads.mp hmem).1]
      rfl
    | _ => cases hfound
  · obtain ⟨⟨⟨job, thread⟩, i⟩, -, hfound⟩ := List.exists_of_findSome?_eq_some hmove
    cases thread with
    | running start =>
      obtain ⟨⟨ending, w''⟩, hpoll, heq⟩ := Option.map_eq_some_iff.mp hfound
      obtain ⟨rfl, rfl⟩ := Prod.mk.inj heq
      exact uncalled (h.poll _ _ _ _ _ _ hpoll) rfl
    | _ => cases hfound

theorem dispatcherMove? (h : x.Records log) (hmove : x.dispatcherMove? p s w = some (m, w')) :
    log w' = log w ++ m.called p := by
  unfold Executor.dispatcherMove? at hmove
  split at hmove
  · rename_i step hstage hleader
    obtain ⟨rfl, rfl⟩ := Prod.mk.inj (Option.some.inj hmove)
    rw [h.begin, Move.called, hleader]
    rfl
  · obtain ⟨⟨ending, w''⟩, hpoll, heq⟩ := Option.map_eq_some_iff.mp hmove
    obtain ⟨rfl, rfl⟩ := Prod.mk.inj heq
    exact uncalled (h.poll _ _ _ _ _ _ hpoll) rfl
  -- at all other stages the world is left as it is
  · cases hmove
    exact uncalled rfl rfl
  · cases hmove
    exact uncalled rfl rfl
  · split at hmove
    · cases hmove
    · obtain ⟨port, -, heq⟩ := Option.map_eq_some_iff.mp hmove
      obtain ⟨rfl, rfl⟩ := Prod.mk.inj heq
      exact uncalled rfl rfl
  · split at hmove
    · cases hmove
    · cases hmove
      exact uncalled rfl rfl
  · split at hmove
    · cases hmove
      exact uncalled rfl rfl
    · cases hmove
  · cases hmove

theorem phaseMove (h : x.Records log) (p : Phase) (s : State) (w : World) :
    log (x.phaseMove p s w).2 = log w ++ (x.phaseMove p s w).1.called p := by
  unfold Executor.phaseMove
  split
  · rename_i hmove
    exact h.dispatcherMove? hmove
  · cases hthread : x.threadMove? p s w with
    | some move => exact h.threadMove? hthread
    | none => exact uncalled rfl rfl

theorem runMove (h : x.Records log) (r : Run) (w : World) :
    log (x.runMove r w).2 = log w ++ (x.runMove r w).1.called r := by
  cases hcurrent : r.current with
  | none => simp [Executor.runMove, hcurrent, RunMove.called]
  | some y =>
    obtain ⟨p, s⟩ := y
    cases hstage : s.stage with
    | closed => simp [Executor.runMove, hcurrent, hstage, RunMove.called]
    | _ => simpa [Executor.runMove, hcurrent, hstage, RunMove.called] using h.phaseMove p s w

/-- **The record of a run.**  A world with a record of what a run has called the executor with is still one when the run
has been carried on. -/
theorem carryOut (h : x.Records log) (hx : x.Prompt) (hready : x.Ready opening r) (hlog : log w = r.called)
    (fuel : Nat) : log (x.carryOut fuel r w).2 = (x.carryOut fuel r w).1.called := by
  induction fuel generalizing r w with
  | zero => exact hlog
  | succ fuel ih =>
    unfold Executor.carryOut
    split
    · exact hlog
    · rename_i hopen
      obtain ⟨t, ht, -⟩ := runMove_apply hx hready (Bool.eq_false_iff.mpr hopen) w
      have hstep := runStep_of_apply ht
      simp only [ht]
      refine ih (hready.step hstep) ?_
      rw [h.runMove, hlog, hstep.called]

end Records

end Executor

end FanOut

/-! ### rollouts -/

namespace Rollout

variable {s : Setup} {phases : List Phase}

theorem prompt_executor (s : Setup) (c : Config) : (executor s c).Prompt := ⟨fun _ _ _ _ => rfl, fun _ _ => rfl⟩

theorem records_executor (s : Setup) (c : Config) : (executor s c).Records Machine.executed where
  begin _ _ _ _ := rfl
  poll _ _ _ _ _ _ h := by
    obtain ⟨-, rfl⟩ := Prod.mk.inj (Option.some.inj h)
    rfl

/-- When the port that a phase waits for opens, or the beginning of time. -/
def openingTime (s : Setup) (p : Phase) : Nat := (opening? s p).getD 0

theorem admits_executor (c : Config) {p : Phase} (h : opening? s p ≠ none) :
    (executor s c).Admits (openingTime s p) p := by
  intro step port hleader hport now w hnow
  obtain ⟨time, htime⟩ := Option.ne_none_iff_exists'.mp h
  rw [openingTime, htime] at hnow
  have hopens : s.opens step.job.host.hostname port = some time := by
    simpa only [opening?, hleader, hport] using htime
  simpa [executor, hopens] using hnow

theorem moves?_eq_none : moves? s phases = none ↔ ∃ p ∈ phases, opening? s p = none := by
  induction phases with
  | nil => simp [moves?]
  | cons p rest ih =>
    cases hopening : opening? s p with
    | none => simp [moves?, hopening]
    | some time =>
      cases hrest : moves? s rest with
      | none => simpa [moves?, hopening, hrest] using ih
      | some n => simpa [moves?, hopening, hrest] using ih

theorem left_le_moves? {n : Nat} (h : moves? s phases = some n) :
    (Run.initial phases).left (openingTime s) ≤ n := by
  have hfuture : phases.foldr (fun p n => 4 * p.jobs.length + 9 + 2 * retries (openingTime s p) 0 + n) 0 ≤ n := by
    induction phases generalizing n with
    | nil => exact Nat.zero_le _
    | cons p rest ih =>
      obtain ⟨time, htime, h⟩ := Option.bind_eq_some_iff.mp h
      obtain ⟨k, hk, h⟩ := Option.bind_eq_some_iff.mp h
      obtain rfl := Option.some.inj h
      have hrest := ih hk
      have hretries : retries (openingTime s p) 0 ≤ time / probeInterval + 1 := by
        rw [openingTime, htime, Option.getD_some]
        unfold retries probeInterval
        omega
      rw [List.foldr_cons]
      omega
  exact Nat.le_trans (Nat.le_of_eq (Nat.zero_add _)) hfuture

variable {p : Plan} {c : Config} {r : Request} {d : Directory} {rollout : Rollout} {fault : Fault}

theorem ofPlan_eq_none : ofPlan s p d = none ↔ ∃ q ∈ p.phases, opening? s q = none := by
  rw [ofPlan, Option.map_eq_none_iff, moves?_eq_none]

/-- **What a rollout is.**  It is a run of the plan that moves lead to and that is over, on a machine that has been
given the jobs that the executor was called with. -/
theorem ofPlan_eq_some (h : ofPlan s p d = some rollout) :
    ∃ r, Run.Reaches (.initial p.phases) r ∧ r.isOver = true ∧ rollout.result = .ok (r.report p.testbed) ∧
      rollout.notices = p.notices ++ r.notices ∧ rollout.machine.executed = r.called := by
  obtain ⟨fuel, hfuel, rfl⟩ := Option.map_eq_some_iff.mp h
  have hopens : ∀ q ∈ p.phases, opening? s q ≠ none := fun q hq hnone => by
    rw [moves?_eq_none.mpr ⟨q, hq, hnone⟩] at hfuel
    cases hfuel
  have hready : (executor s p.config).Ready (openingTime s) (.initial p.phases) :=
    .initial fun q hq => admits_executor p.config (hopens q hq)
  have hprompt := prompt_executor s p.config
  refine ⟨_, Executor.reaches_of_carryOut rfl, ?_, rfl, rfl, ?_⟩
  · exact Executor.isOver_carryOut hprompt hready (left_le_moves? hfuel) ⟨d, []⟩
  · exact (records_executor s p.config).carryOut hprompt hready rfl fuel

theorem executed_perm (h : ofPlan s p d = some rollout) : rollout.machine.executed.Perm (jobsOf p.phases) := by
  obtain ⟨r, hreaches, hover, -, -, hexecuted⟩ := ofPlan_eq_some h
  exact hexecuted ▸ (Run.InOrder.of_reaches hreaches).called_perm hover

theorem run_of_plan_error (h : plan c r s.stamp d = .error fault) : run s c r d = some (refused d fault) := by
  rw [run, h]

theorem run_of_plan_ok (h : plan c r s.stamp d = .ok p) : run s c r d = ofPlan s p d := by
  rw [run, h]

theorem run_refused (h : run s c r d = some rollout) (hresult : rollout.result = .error fault) :
    plan c r s.stamp d = .error fault ∧ rollout = refused d fault := by
  cases hplan : plan c r s.stamp d with
  | error other =>
    rw [run_of_plan_error hplan] at h
    obtain rfl := Option.some.inj h
    obtain rfl := Except.error.inj hresult
    exact ⟨rfl, rfl⟩
  | ok p =>
    rw [run_of_plan_ok hplan] at h
    obtain ⟨x, -, -, hreport, -⟩ := ofPlan_eq_some h
    cases hresult.symm.trans hreport

theorem run_reported {report : RunReport} (h : run s c r d = some rollout) (hresult : rollout.result = .ok report) :
    ∃ p, plan c r s.stamp d = .ok p ∧ ofPlan s p d = some rollout := by
  cases hplan : plan c r s.stamp d with
  | error fault =>
    rw [run_of_plan_error hplan] at h
    obtain rfl := Option.some.inj h
    cases hresult
  | ok p => exact ⟨p, rfl, run_of_plan_ok hplan ▸ h⟩

end Rollout

end Fleet
