import Mathlib.Data.List.Count
import Mathlib.Data.List.Nodup
import Mathlib.Data.Option.Basic
import Fleet.Proofs.FanOut.Ledger

/-!
# Joining all threads

When a phase is over, the executor has been called once with the leader's command and once with each job, and with
nothing else.  The report has an entry for each job, at the job's position, and the state in it is that of how the
execution of this very job ended, so it is terminal (`join_all`).  All of it is read off the ledger: at the end no
thread is left to be joined, so each has ended and left its report.
-/

namespace Fleet.FanOut

open State

variable {p : Phase} {s : State}

/-! ### what the executor was asked and what it did -/

/-- The executions that the executor was called for, in the order of the calls, and the jobs it was called with. -/
def calls (events : List Event) : List (Slot × Job) :=
  events.filterMap fun
    | .began slot job _ => some (slot, job)
    | _ => none

/-- How the executions of a slot ended, in the order of their ends. -/
def endings (slot : Slot) (events : List Event) : List Ending :=
  events.filterMap fun
    | .ended other ending _ => if slot = other then some ending else none
    | _ => none

/-- Whether a mark is a call of the executor. -/
def Mark.isBegan : Mark → Bool
  | .began _ => true
  | _ => false

def Mark.ending? : Mark → Option Ending
  | .ended ending _ => some ending
  | _ => none

theorem count_calls (events : List Event) (slot : Slot) :
    ((calls events).map Prod.fst).count slot = (marks events slot).countP Mark.isBegan := by
  rw [calls, marks, List.map_filterMap, List.count_filterMap, List.countP_filterMap]
  congr 1
  funext e
  cases e with
  | began other job time =>
    by_cases hslot : slot = other
    · simp [Event.mark?, hslot, Mark.isBegan]
    · simp [Event.mark?, hslot, Ne.symm hslot]
  | ended other ending time => by_cases hslot : slot = other <;> simp [Event.mark?, hslot, Mark.isBegan]
  | spawned i time => by_cases hslot : slot = .job i <;> simp [Event.mark?, hslot, Mark.isBegan]
  | probed hostname port accepted time => rfl
  | rested time => rfl

theorem endings_eq (slot : Slot) (events : List Event) :
    endings slot events = (marks events slot).filterMap Mark.ending? := by
  rw [endings, marks, List.filterMap_filterMap]
  congr 1
  funext e
  cases e with
  | ended other ending time => by_cases hslot : slot = other <;> simp [Event.mark?, hslot, Mark.ending?]
  | began other job time => by_cases hslot : slot = other <;> simp [Event.mark?, hslot, Mark.ending?]
  | spawned i time => by_cases hslot : slot = .job i <;> simp [Event.mark?, hslot, Mark.ending?]
  | probed hostname port accepted time => rfl
  | rested time => rfl

theorem isTerminal_stateOf (answer : Answer) : (stateOf answer).isTerminal = true := by
  cases answer with
  | error fault => rfl
  | ok outcome => exact JobState.isTerminal_state outcome

theorem Ending.isTerminal_state (ending : Ending) : ending.state.isTerminal = true := by
  cases ending with
  | answered answer => exact isTerminal_stateOf answer
  | died => rfl

/-! ### the end of a phase -/

namespace Ledger

theorem closed_job (h : Ledger p s) (hclosed : s.stage = .closed) {i : Nat} {job : Job}
    (hjob : p.jobs[i]? = some job) :
    ∃ start stop ending launched finished, s.threads[i]? = some (.ended start stop ending) ∧
      s.reports[i]? = some (some (.ofJob job ending.state launched finished)) := by
  have hi : i ∈ s.handles := by
    have hqueue := h.queue
    rw [hclosed, Stage.unspawned, List.append_nil] at hqueue
    rw [hqueue, mem_order]
    exact (List.getElem?_eq_some_iff.mp hjob).1
  have hjoined := h.joined i hi
  rw [hclosed] at hjoined
  obtain ⟨report, hreport, job', start, stop, ending, launched, finished, hjob', hthread, rfl⟩ :=
    hjoined.resolve_left (by simp [Stage.unjoined])
  obtain rfl := Option.some.inj (hjob.symm.trans hjob')
  exact ⟨start, stop, ending, launched, finished, hthread, hreport⟩

theorem closed_marks (h : Ledger p s) (hclosed : s.stage = .closed) {i : Nat} (hi : i < p.jobs.length) :
    ∃ start stop ending, marks s.events (.job i) = [.spawned, .began start, .ended ending stop] := by
  obtain ⟨start, stop, ending, -, -, hthread, -⟩ := h.closed_job hclosed (List.getElem?_eq_getElem hi)
  exact ⟨start, stop, ending, by rw [h.jobs, hthread]; rfl⟩

theorem marks_eq_nil (h : Ledger p s) {i : Nat} (hi : p.jobs.length ≤ i) : marks s.events (.job i) = [] := by
  rw [h.jobs, List.getElem?_eq_none (h.threads_length ▸ hi)]
  rfl

theorem closed_slots (h : Ledger p s) (hclosed : s.stage = .closed) :
    ((calls s.events).map Prod.fst).Perm (slots p) := by
  refine List.perm_iff_count.mpr fun slot => ?_
  rw [count_calls, slots, List.count_append]
  cases slot with
  | leader =>
    have hled := h.leader
    have hjobs : ((List.range p.jobs.length).map Slot.job).count .leader = 0 :=
      List.count_eq_zero.mpr (by simp)
    rw [hjobs]
    cases hleader : p.leader with
    | none =>
      simp only [LeaderLedger, hleader] at hled
      simp [hled.1]
    | some step =>
      simp only [LeaderLedger, hleader, hclosed, Stage.leading?] at hled
      obtain ⟨start, stop, answer, hmarks, -⟩ := hled
      rw [hmarks]
      rfl
  | job i =>
    have hleader : (p.leader.toList.map fun _ => Slot.leader).count (.job i) = 0 :=
      List.count_eq_zero.mpr (by simp)
    rw [hleader, List.count_map_of_injective _ _ (fun _ _ => Slot.job.inj), Nat.zero_add]
    by_cases hi : i < p.jobs.length
    · obtain ⟨start, stop, ending, hmarks⟩ := h.closed_marks hclosed hi
      rw [hmarks, List.count_eq_one_of_mem List.nodup_range (List.mem_range.mpr hi)]
      rfl
    · rw [h.marks_eq_nil (Nat.not_lt.mp hi), List.count_eq_zero.mpr (by simpa using hi)]
      rfl

theorem closed_calls (h : Ledger p s) (hclosed : s.stage = .closed) : (calls s.events).Perm (tasks p) := by
  have hslots : ((calls s.events).map Prod.fst).Perm ((tasks p).map Prod.fst) :=
    tasks_map_fst p ▸ h.closed_slots hclosed
  have hnodup : (calls s.events).Nodup := .of_map Prod.fst ((h.closed_slots hclosed).nodup_iff.mpr (nodup_slots p))
  have hsub : calls s.events ⊆ tasks p := by
    rintro ⟨slot, job⟩ hcall
    obtain ⟨e, he, hsome⟩ := List.mem_filterMap.mp hcall
    cases e with
    | began other called time =>
      obtain ⟨rfl, rfl⟩ := Prod.mk.inj (Option.some.inj hsome)
      exact h.begun _ _ _ he
    | _ => cases hsome
  -- as many calls as tasks, each of them one of these, and none twice
  have hlength := hslots.length_eq
  rw [List.length_map, List.length_map] at hlength
  exact (hnodup.subperm hsub).perm_of_length_le (Nat.le_of_eq hlength.symm)

theorem closed_reports (h : Ledger p s) (hclosed : s.stage = .closed) : (s.report p).jobs.map some = s.reports := by
  rw [State.report, List.map_filterMap_some_eq_filter_map_isSome, List.map_id, List.filter_eq_self]
  intro report hmem
  obtain ⟨i, hi, rfl⟩ := List.mem_iff_getElem.mp hmem
  have hjob := List.getElem?_eq_getElem (h.reports_length ▸ hi : i < p.jobs.length)
  obtain ⟨_, _, _, _, _, -, hreport⟩ := h.closed_job hclosed hjob
  rw [List.getElem?_eq_getElem hi] at hreport
  rw [Option.some.inj hreport]
  rfl

theorem endings_of_ended (h : Ledger p s) {i start stop : Nat} {ending : Ending}
    (hthread : s.threads[i]? = some (.ended start stop ending)) : endings (.job i) s.events = [ending] := by
  rw [endings_eq, h.jobs, hthread]
  rfl

/-- At the end of a phase the report of a job is made of the job and of how its execution ended. -/
theorem closed_report (h : Ledger p s) (hclosed : s.stage = .closed) {i : Nat} {job : Job}
    (hjob : p.jobs[i]? = some job) :
    ∃ ending launched finished, endings (.job i) s.events = [ending] ∧
      (s.report p).jobs[i]? = some (.ofJob job ending.state launched finished) := by
  obtain ⟨start, stop, ending, launched, finished, hthread, hreport⟩ := h.closed_job hclosed hjob
  refine ⟨ending, launched, finished, h.endings_of_ended hthread, ?_⟩
  rw [← h.closed_reports hclosed, List.getElem?_map] at hreport
  exact Option.map_injective (Option.some_injective _) hreport

theorem closed_length (h : Ledger p s) (hclosed : s.stage = .closed) :
    (s.report p).jobs.length = p.jobs.length := by
  rw [← h.reports_length, ← h.closed_reports hclosed, List.length_map]

/-- At the end of a phase the state reported for a position is that of the endings of its execution. -/
theorem closed_state (h : Ledger p s) (hclosed : s.stage = .closed) (i : Nat) :
    ((s.report p).jobs[i]?).map (·.state) = (endings (.job i) s.events).head?.map Ending.state := by
  by_cases hi : i < p.jobs.length
  · obtain ⟨ending, launched, finished, hendings, hreport⟩ :=
      h.closed_report hclosed (List.getElem?_eq_getElem hi)
    rw [hendings, hreport]
    rfl
  · have hle : p.jobs.length ≤ i := Nat.not_lt.mp hi
    rw [endings_eq, h.marks_eq_nil hle, List.getElem?_eq_none (h.closed_length hclosed ▸ hle)]
    rfl

theorem closed_leader (h : Ledger p s) (hclosed : s.stage = .closed) {step : LeaderStep}
    (hleader : p.leader = some step) :
    ∃ start stop answer, marks s.events .leader = [.began start, .ended (.answered answer) stop] ∧
      s.leader = some (.ofJob step.job (stateOf answer) start stop) := by
  simpa only [LeaderLedger, hleader, hclosed, Stage.leading?] using h.leader

theorem leader_eq_none (h : Ledger p s) (hleader : p.leader = none) : s.leader = none := by
  have hled := h.leader
  simp only [LeaderLedger, hleader] at hled
  exact hled.2

theorem closed_terminal (h : Ledger p s) (hclosed : s.stage = .closed) :
    ∀ report ∈ (s.report p).all, report.state.isTerminal = true := by
  intro report hmem
  rcases List.mem_append.mp hmem with hmem | hmem
  · cases hleader : p.leader with
    | none => simp [State.report, h.leader_eq_none hleader] at hmem
    | some step =>
      obtain ⟨start, stop, answer, -, hreport⟩ := h.closed_leader hclosed hleader
      rw [State.report, hreport] at hmem
      rw [List.mem_singleton.mp hmem]
      exact isTerminal_stateOf answer
  · obtain ⟨i, hi, rfl⟩ := List.mem_iff_getElem.mp hmem
    have hjob := List.getElem?_eq_getElem (h.closed_length hclosed ▸ hi : i < p.jobs.length)
    obtain ⟨ending, launched, finished, -, hreport⟩ := h.closed_report hclosed hjob
    rw [List.getElem?_eq_getElem hi] at hreport
    rw [Option.some.inj hreport]
    exact ending.isTerminal_state

end Ledger

/-- **Every phase joins all its threads.**  When it is over, the executor has been called once with the leader's
command, if there is one, once with each job, and with nothing else; the report has one entry for each job, at the
job's position, with the state that the end of this very execution counts as, which is terminal.  So two runs in which
the execution at a position ends in the same way report the same state there, whatever all others did. -/
theorem join_all (p : Phase) (now : Nat) (s : State) (h : Reaches p (.initial p now) s)
    (hclosed : s.stage = .closed) :
    (calls s.events).Perm
      ((p.leader.toList.map fun step => (.leader, step.job)) ++ p.jobs.zipIdx.map fun x => (.job x.2, x.1)) ∧
    (s.report p).jobs.length = p.jobs.length ∧
    (∀ i job, p.jobs[i]? = some job → ∃ report ending, (s.report p).jobs[i]? = some report ∧
      report.host = job.host ∧ report.jobClass = job.jobClass ∧ report.log = job.log ∧
      endings (.job i) s.events = [ending] ∧ report.state.isTerminal = true ∧
      report.state = match ending with
        | .answered (.ok .succeeded) => .succeeded
        | .answered (.ok (.failed exitCode)) => .failed exitCode
        | .answered (.error _) | .died => .failed none) ∧
    (∀ report ∈ (s.report p).all, report.state.isTerminal = true) ∧
    (∀ p' now' s', Reaches p' (.initial p' now') s' → s'.stage = .closed →
      ∀ i, endings (.job i) s'.events = endings (.job i) s.events →
        ((s'.report p').jobs[i]?).map (·.state) = ((s.report p).jobs[i]?).map (·.state)) := by
  have hledger := Ledger.of_reaches h
  refine ⟨hledger.closed_calls hclosed, hledger.closed_length hclosed, ?_, hledger.closed_terminal hclosed, ?_⟩
  · intro i job hjob
    obtain ⟨ending, launched, finished, hendings, hreport⟩ := hledger.closed_report hclosed hjob
    refine ⟨_, ending, hreport, rfl, rfl, rfl, hendings, ending.isTerminal_state, ?_⟩
    rcases ending with (fault | _ | exitCode) | _ <;> rfl
  · intro p' now' s' h' hclosed' i hendings
    rw [(Ledger.of_reaches h').closed_state hclosed', hledger.closed_state hclosed, hendings]

/-- The sample phase is over, and its report tells of each job what became of it. -/
theorem join_all_sample :
    ∃ s, Reaches samplePhase (.initial samplePhase 0) s ∧ s.stage = .closed ∧
      ((s.report samplePhase).jobs.map (·.state)) = [.failed (some 3), .failed none, .succeeded] ∧
      (calls s.events).Perm
        [(.leader, sampleJob "a"), (.job 0, sampleJob "b"), (.job 1, sampleJob "a"), (.job 2, sampleJob "a")] := by
  have hreplay : ∃ s, replay samplePhase (.initial samplePhase 0) sampleMoves = some s ∧ s.stage = .closed ∧
      (s.report samplePhase).jobs.map (·.state) = [.failed (some 3), .failed none, .succeeded] :=
    ⟨_, rfl, rfl, rfl⟩
  obtain ⟨s, hs, hclosed, hstates⟩ := hreplay
  have h := reaches_of_replay hs
  exact ⟨s, h, hclosed, hstates, (join_all samplePhase 0 s h hclosed).1⟩

end Fleet.FanOut
