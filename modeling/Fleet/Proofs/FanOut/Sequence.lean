import Fleet.FanOut.Executor
import Fleet.Proofs.FanOut.History

/-!
# Phases one after the other

A run executes the jobs of one phase at a time.  When an execution begins, all executions of the phases before it have
ended, and when the run is over, its report has an entry for each phase, and counts as failures the executions that
did not return a success (`phases_in_order`).  The order is that of the history (`Run.InOrder`); that nothing of a
phase is left when the next one begins is what the ledger says of a phase that is over.
-/

namespace Fleet.FanOut

open State

/-! ### the executions of a phase -/

section Phase

variable {p : Phase} {s : State}

/-- Whether an execution has returned a success. -/
def Ending.isSuccess : Ending → Bool
  | .answered (.ok .succeeded) => true
  | _ => false

theorem Ending.succeeded_ofJob (ending : Ending) (job : Job) (launched finished : Nat) :
    (JobReport.ofJob job ending.state launched finished).succeeded = ending.isSuccess := by
  rcases ending with (fault | _ | exitCode) | _ <;> rfl

namespace Ledger

/-- At the end of a phase the leader's command has been answered, once, and its report is made of the answer. -/
theorem closed_answered (h : Ledger p s) (hclosed : s.stage = .closed) {step : LeaderStep}
    (hleader : p.leader = some step) :
    ∃ start stop answer, endings .leader s.events = [.answered answer] ∧
      s.leader = some (.ofJob step.job (stateOf answer) start stop) := by
  obtain ⟨start, stop, answer, hmarks, hreport⟩ := h.closed_leader hclosed hleader
  refine ⟨start, stop, answer, ?_, hreport⟩
  rw [endings_eq, hmarks]
  rfl

theorem closed_ended (h : Ledger p s) (hclosed : s.stage = .closed) {slot : Slot} (hslot : slot ∈ slots p) :
    ∃ ending time, .ended slot ending time ∈ s.events ∧ endings slot s.events = [ending] := by
  rcases List.mem_append.mp hslot with hslot | hslot
  · obtain ⟨step, hstep, rfl⟩ := List.mem_map.mp hslot
    obtain ⟨start, stop, answer, hmarks, -⟩ := h.closed_leader hclosed (Option.mem_toList.mp hstep)
    refine ⟨.answered answer, stop, ended_mem_of_mark (hmarks ▸ by simp), ?_⟩
    rw [endings_eq, hmarks]
    rfl
  · obtain ⟨i, hi, rfl⟩ := List.mem_map.mp hslot
    obtain ⟨start, stop, ending, hmarks⟩ := h.closed_marks hclosed (List.mem_range.mp hi)
    refine ⟨ending, stop, ended_mem_of_mark (hmarks ▸ by simp), ?_⟩
    rw [endings_eq, hmarks]
    rfl

theorem mem_slots (h : Ledger p s) {slot : Slot} {job : Job} {time : Nat}
    (he : .began slot job time ∈ s.events) : slot ∈ slots p :=
  tasks_map_fst p ▸ List.mem_map_of_mem (h.begun slot job time he)

theorem closed_succeeded (h : Ledger p s) (hclosed : s.stage = .closed) :
    (s.report p).jobs.map JobReport.succeeded =
      (List.range p.jobs.length).map fun i => (endings (.job i) s.events).all Ending.isSuccess := by
  refine List.ext_getElem (by simp [h.closed_length hclosed]) fun i hi hi' => ?_
  rw [List.length_map, List.length_range] at hi'
  obtain ⟨ending, launched, finished, hendings, hreport⟩ := h.closed_report hclosed (List.getElem?_eq_getElem hi')
  obtain ⟨hlt, hget⟩ := List.getElem?_eq_some_iff.mp hreport
  simp [hendings, hget, Ending.succeeded_ofJob]

theorem closed_failures (h : Ledger p s) (hclosed : s.stage = .closed) :
    (s.report p).failures = (slots p).countP fun slot => !(endings slot s.events).all Ending.isSuccess := by
  have hleader : (s.report p).leader.toList.countP (!·.succeeded) =
      (p.leader.toList.map fun _ => Slot.leader).countP fun slot =>
        !(endings slot s.events).all Ending.isSuccess := by
    cases hsome : p.leader with
    | none =>
      simp [State.report, h.leader_eq_none hsome]
    | some step =>
      obtain ⟨start, stop, answer, hendings, hreport⟩ := h.closed_answered hclosed hsome
      have hsucceeded := (Ending.answered answer).succeeded_ofJob step.job start stop
      simp [State.report, hreport, hendings, ← hsucceeded, Ending.state]
  have hcount : (s.report p).jobs.countP (!·.succeeded) =
      (List.range p.jobs.length).countP fun i => !(endings (.job i) s.events).all Ending.isSuccess := by
    have hnot := congrArg (List.countP fun succeeded => !succeeded) (h.closed_succeeded hclosed)
    rwa [List.countP_map, List.countP_map] at hnot
  rw [PhaseReport.failures, PhaseReport.all, List.countP_append, hleader, hcount, slots, List.countP_append,
    List.countP_map (f := Slot.job)]
  rfl

end Ledger

end Phase

/-! ### the executions of a run -/

def executions (phases : List Phase) : List (Nat × Slot) :=
  phases.zipIdx.flatMap fun x => (slots x.1).map (x.2, ·)

theorem executions_map (l : List (Phase × State)) :
    executions (l.map (·.1)) = l.zipIdx.flatMap fun x => (slots x.1.1).map (x.2, ·) := by
  rw [executions, List.zipIdx_map, List.flatMap_map]
  rfl

namespace Run

variable {r : Run}

/-- The executions that the executor was called for, in the order of the calls. -/
def calls (r : Run) : List (Nat × Slot) :=
  r.history.filterMap fun
    | (k, .began slot _ _) => some (k, slot)
    | _ => none

/-- How an execution ended, as often as it did. -/
def endings (r : Run) (x : Nat × Slot) : List Ending := FanOut.endings x.2 (r.eventsOf x.1)

/-- An execution has begun and not ended. -/
def Executing (r : Run) (x : Nat × Slot) : Prop :=
  (∃ job time, (x.1, .began x.2 job time) ∈ r.history) ∧ ∀ ending time, (x.1, .ended x.2 ending time) ∉ r.history

theorem calls_eq (r : Run) :
    r.calls = r.begun.zipIdx.flatMap fun x => ((FanOut.calls x.1.2.events).map Prod.fst).map (x.2, ·) := by
  rw [calls, history, numbered, List.filterMap_flatMap]
  congr 1
  funext x
  rw [FanOut.calls, List.filterMap_map, List.map_filterMap, List.map_filterMap]
  congr 1
  funext e
  cases e <;> rfl

namespace InOrder

variable {phases : List Phase}

theorem ledger (h : InOrder phases r) {x : Phase × State} (hx : x ∈ r.begun) : Ledger x.1 x.2 := by
  obtain ⟨now, hreaches⟩ := h.reached x hx
  exact .of_reaches hreaches

theorem past_of_lt (h : InOrder phases r) {k : Nat} (hk : k < r.past.length) :
    ∃ x, r.begun[k]? = some x ∧ phases[k]? = some x.1 ∧ x.2.stage = .closed ∧ Ledger x.1 x.2 := by
  have hbegun : r.begun[k]? = some r.past[k] := by
    rw [begun, List.getElem?_append_left hk, List.getElem?_eq_getElem hk]
  refine ⟨_, hbegun, ?_, h.past_closed _ (List.getElem_mem hk), h.ledger (List.mem_of_getElem? hbegun)⟩
  have hlt : k < (r.begun.map (·.1)).length := by
    rw [List.length_map]
    exact (List.getElem?_eq_some_iff.mp hbegun).1
  rw [← h.phases_eq, List.getElem?_append_left hlt, List.getElem?_map, hbegun]
  rfl

theorem executing (h : InOrder phases r) {x : Nat × Slot} (hx : r.Executing x) : x.1 = r.past.length := by
  obtain ⟨⟨job, time, hbegan⟩, hended⟩ := hx
  refine Nat.le_antisymm (h.clocked _ hbegan).1 (Nat.le_of_not_lt fun hlt => ?_)
  obtain ⟨y, hy, -, hclosed, hledger⟩ := h.past_of_lt hlt
  have hevents := r.eventsOf_eq hy
  rw [← mem_eventsOf, hevents] at hbegan
  obtain ⟨ending, stop, hmem, -⟩ := hledger.closed_ended hclosed (hledger.mem_slots hbegan)
  exact hended ending stop (mem_eventsOf.mp (hevents ▸ hmem))

/-- When an execution begins, every execution of an earlier phase has ended, and nothing of that phase comes
after it. -/
theorem ended_before (h : InOrder phases r) {before after : List (Nat × Event)} {k j time : Nat} {slot : Slot}
    {job : Job} (hhistory : r.history = before ++ (k, .began slot job time) :: after) (hjk : j < k) :
    (∀ p, phases[j]? = some p → ∀ other ∈ slots p,
      ∃ ending stop, (j, .ended other ending stop) ∈ before ∧ stop ≤ time) ∧ ∀ e, (j, e) ∉ after := by
  have hordered := h.ordered
  rw [hhistory, List.pairwise_append, List.pairwise_cons] at hordered
  obtain ⟨-, ⟨hlater, -⟩, hearlier⟩ := hordered
  have hafter : ∀ e, (j, e) ∉ after := fun e he => Nat.not_le_of_lt hjk (hlater _ he).1
  refine ⟨fun p hp other hother => ?_, hafter⟩
  have hk : k ≤ r.past.length := (h.clocked (k, .began slot job time) (by simp [hhistory])).1
  obtain ⟨x, hx, hphase, hclosed, hledger⟩ := h.past_of_lt (Nat.lt_of_lt_of_le hjk hk)
  obtain rfl : x.1 = p := Option.some.inj (hphase.symm.trans hp)
  obtain ⟨ending, stop, hmem, -⟩ := hledger.closed_ended hclosed hother
  have hin : (j, .ended other ending stop) ∈ r.history := mem_eventsOf.mp (r.eventsOf_eq hx ▸ hmem)
  rw [hhistory, List.mem_append, List.mem_cons, Prod.mk.injEq] at hin
  have hbefore := (hin.resolve_right fun hin => ?_)
  · exact ⟨ending, stop, hbefore, (hearlier _ hbefore _ List.mem_cons_self).2⟩
  · rcases hin with ⟨rfl, -⟩ | hin
    · exact Nat.lt_irrefl _ hjk
    · exact hafter _ hin

/-! ### the end of a run -/

theorem finished (h : InOrder phases r) (hover : r.isOver = true) : r.begun = r.past ∧ r.past.map (·.1) = phases := by
  obtain ⟨hcurrent, hfuture⟩ : r.current = none ∧ r.future = [] := by simpa [isOver] using hover
  have hbegun : r.begun = r.past := by simp [begun, hcurrent]
  refine ⟨hbegun, ?_⟩
  have hphases := h.phases_eq
  rwa [hbegun, hfuture, List.append_nil] at hphases

theorem over_calls (h : InOrder phases r) (hover : r.isOver = true) : r.calls.Perm (executions phases) := by
  obtain ⟨hbegun, hphases⟩ := h.finished hover
  rw [calls_eq, ← hphases, executions_map, hbegun]
  refine .flatMap_left _ fun x hx => .map _ ?_
  have hpast : x.1 ∈ r.past := List.mem_of_getElem? (List.mem_zipIdx_iff_getElem?.mp hx)
  exact (h.ledger (hbegun ▸ hpast)).closed_slots (h.past_closed _ hpast)

theorem over_endings (h : InOrder phases r) (hover : r.isOver = true) {x : Nat × Slot} (hx : x ∈ executions phases) :
    ∃ ending, r.endings x = [ending] := by
  obtain ⟨hbegun, hphases⟩ := h.finished hover
  rw [← hphases, executions_map] at hx
  obtain ⟨y, hy, hx⟩ := List.mem_flatMap.mp hx
  obtain ⟨slot, hslot, rfl⟩ := List.mem_map.mp hx
  have hget := List.mem_zipIdx_iff_getElem?.mp hy
  have hpast : y.1 ∈ r.past := List.mem_of_getElem? hget
  obtain ⟨ending, -, -, hending⟩ := (h.ledger (hbegun ▸ hpast)).closed_ended (h.past_closed _ hpast) hslot
  refine ⟨ending, ?_⟩
  rw [endings, r.eventsOf_eq (hbegun ▸ hget)]
  exact hending

theorem over_failures (h : InOrder phases r) (hover : r.isOver = true) (testbed : String) :
    (r.report testbed).failures = (executions phases).countP fun x => !(r.endings x).all Ending.isSuccess := by
  obtain ⟨hbegun, hphases⟩ := h.finished hover
  have hsum : (r.report testbed).failures = (r.past.map fun x => (x.2.report x.1).failures).sum := by
    rw [RunReport.failures, report, List.foldr_map, List.sum, List.foldr_map]
  have hphase : r.past.zipIdx.map (fun y => (y.1.2.report y.1.1).failures) =
      r.past.zipIdx.map fun y => ((slots y.1.1).map (y.2, ·)).countP fun x => !(r.endings x).all Ending.isSuccess := by
    refine List.map_congr_left fun y hy => ?_
    have hget := List.mem_zipIdx_iff_getElem?.mp hy
    have hpast : y.1 ∈ r.past := List.mem_of_getElem? hget
    rw [(h.ledger (hbegun ▸ hpast)).closed_failures (h.past_closed _ hpast), List.countP_map]
    refine List.countP_congr fun slot _ => ?_
    simp only [Function.comp_apply, endings, r.eventsOf_eq (hbegun ▸ hget : r.begun[y.2]? = some y.1)]
  have hpast : r.past.map (fun x => (x.2.report x.1).failures) =
      r.past.zipIdx.map fun y => (y.1.2.report y.1.1).failures := by
    conv_lhs => rw [← List.zipIdx_map_fst 0 r.past, List.map_map]
    rfl
  rw [hsum, hpast, hphase, ← hphases, executions_map, List.countP_flatMap]
  rfl

end InOrder

end Run

/-- **Phases run one after the other**, whatever their executions come to.  The history of a run is only ever added
to; at every moment what is being executed belongs to one phase; when an execution begins, every execution of an
earlier phase has ended, and nothing of such a phase happens afterwards.  When the run is over, its report has one
entry for each phase, in their order, with its class and its skipped hosts; the executor has been called once for
each execution of each phase, each has ended once, and the failures that the report counts are those executions that
did not return a success. -/
theorem phases_in_order (phases : List Phase) (r : Run) (h : Run.Reaches (.initial phases) r) :
    (∀ m t, r.apply m = some t → ∃ new, t.history = r.history ++ new) ∧
    (∀ x y, r.Executing x → r.Executing y → x.1 = y.1) ∧
    (∀ before k slot job time after, r.history = before ++ (k, Event.began slot job time) :: after → ∀ j < k,
      (∀ p, phases[j]? = some p → ∀ other ∈ slots p,
        ∃ ending stop, (j, Event.ended other ending stop) ∈ before ∧ stop ≤ time) ∧
      ∀ e, (j, e) ∉ after) ∧
    (r.isOver = true → ∀ testbed,
      (r.report testbed).phases.map (fun x => (x.jobClass, x.skipped)) = phases.map (fun p => (p.jobClass, p.skipped)) ∧
      r.calls.Perm (executions phases) ∧
      (∀ x ∈ executions phases, ∃ ending, r.endings x = [ending]) ∧
      (r.report testbed).failures = (executions phases).countP fun x => !(r.endings x).all Ending.isSuccess) := by
  have hordered := Run.InOrder.of_reaches h
  refine ⟨fun m t hm => ?_, fun x y hx hy => ?_, ?_, fun hover testbed => ⟨?_, ?_, ?_, ?_⟩⟩
  · obtain ⟨-, new, hhistory, -⟩ := (runStep_of_apply hm).history
    exact ⟨_, hhistory⟩
  · exact (hordered.executing hx).trans (hordered.executing hy).symm
  · intro before k slot job time after hhistory j hjk
    exact hordered.ended_before hhistory hjk
  · obtain ⟨-, hphases⟩ := hordered.finished hover
    rw [← hphases, Run.report, List.map_map, List.map_map]
    rfl
  · exact hordered.over_calls hover
  · exact fun x hx => hordered.over_endings hover hx
  · exact hordered.over_failures hover testbed

theorem Executor.reaches_of_carryOut {World : Type} {x : Executor World} {fuel : Nat} {r s : Run} {w : World}
    (h : (x.carryOut fuel r w).1 = s) : Run.Reaches r s :=
  h ▸ x.reaches_carryOut fuel r r w (.refl r)

/-- The phase with the leader, and after it a command for the leader's host. -/
def samplePhases : List Phase := [samplePhase, .ofJobs .command [sampleJob "a"]]

/-- An executor that cannot execute a leader's command and loses the thread of the first job of each phase. -/
def sampleExecutor : Executor Unit where
  begin := fun _ _ _ _ => ()
  poll := fun _ slot _ _ =>
    match slot with
    | .leader => some (.answered (.error (.system .notFound)), ())
    | .job 0 => some (.died, ())
    | .job _ => some (.answered (.ok .succeeded), ())
  accepts := fun _ _ _ _ => true
  wake := fun _ _ => none

/-- The two sample phases are over, three of their five executions have failed, and the second phase began when the
first had ended. -/
theorem phases_in_order_sample :
    ∃ r, Run.Reaches (.initial samplePhases) r ∧ r.isOver = true ∧
      (r.report "lab").failures = 3 ∧ (executions samplePhases).length = 5 ∧
      r.calls.Perm (executions samplePhases) ∧
      ∃ before time after, r.history = before ++ (1, Event.began (.job 0) (sampleJob "a") time) :: after ∧
        ∃ ending stop, (0, Event.ended (.job 2) ending stop) ∈ before ∧ stop ≤ time := by
  have hrun : ∃ r, (sampleExecutor.carryOut 40 (.initial samplePhases) ()).1 = r ∧ r.isOver = true ∧
      (r.report "lab").failures = 3 ∧
      r.history = r.history.take 14 ++ (1, Event.began (.job 0) (sampleJob "a") 5) :: r.history.drop 15 :=
    ⟨_, rfl, rfl, rfl, rfl⟩
  obtain ⟨r, hr, hover, hfailures, hhistory⟩ := hrun
  have hreaches : Run.Reaches (.initial samplePhases) r := by
    rw [← hr]
    exact sampleExecutor.reaches_carryOut 40 _ _ () (.refl _)
  obtain ⟨-, -, hbefore, hend⟩ := phases_in_order samplePhases r hreaches
  refine ⟨r, hreaches, hover, hfailures, rfl, (hend hover "lab").2.1, _, _, _, hhistory, ?_⟩
  exact (hbefore _ 1 _ _ _ _ hhistory 0 Nat.one_pos).1 samplePhase rfl (.job 2) (by decide)

end Fleet.FanOut
