import Fleet.FanOut.Run
import Fleet.Proofs.FanOut.Joining

/-!
# The history of a run

The events of all phases of a run, each with the number of its phase, make up its history.  `RunStep` lists the moves
of a run, as `Step` does for a phase, and `RunStep.history` says what each of them adds to the history: events of the
current phase, which happen now.  So the history is in the order of the phases and of time, and `InOrder` keeps this
together with what the run owes to its phases: they are begun in the order of the plan, each goes its own way by
moves that it allows, and only the current one is not over.
-/

namespace Fleet.FanOut

open State

/-! ### what a move adds to the history of a phase -/

section Phase

variable {p : Phase} {s t u : State} {m : Move}

/-- More has happened, and all of it now. -/
def Grows (s t : State) : Prop :=
  t.now = s.now ∧ ∃ new, t.events = s.events ++ new ∧ ∀ e ∈ new, e.time = s.now

namespace Grows

theorem refl (s : State) : Grows s s := ⟨rfl, [], by simp, by simp⟩

theorem trans (h : Grows s t) (h' : Grows t u) : Grows s u := by
  obtain ⟨hnow, new, hevents, htimes⟩ := h
  obtain ⟨hnow', new', hevents', htimes'⟩ := h'
  refine ⟨hnow'.trans hnow, new ++ new', by rw [hevents', hevents, List.append_assoc], fun e he => ?_⟩
  rcases List.mem_append.mp he with he | he
  · exact htimes e he
  · exact (htimes' e he).trans hnow

theorem of_event {e : Event} (he : e.time = s.now) (hnow : t.now = s.now) (hevents : t.events = s.events ++ [e]) :
    Grows s t :=
  ⟨hnow, [e], hevents, by simpa using he⟩

theorem rest (s : State) : Grows s s.rest := of_event rfl rfl rfl

theorem enterBarrier (s : State) (step : LeaderStep) : Grows s (s.enterBarrier step) := by
  unfold State.enterBarrier
  split
  · exact refl s
  · exact rest s

theorem enterOwnJobs (s : State) (todo : List Nat) : Grows s (s.enterOwnJobs p todo) := by
  unfold State.enterOwnJobs
  split
  · exact enterBarrier s _
  · exact refl s

end Grows

theorem Step.grows (h : Step p s m t) : s.now ≤ t.now ∧ ∃ new, t.events = s.events ++ new ∧ ∀ e ∈ new, e.time = s.now := by
  have hnow : Grows s t → s.now ≤ t.now ∧ ∃ new, t.events = s.events ++ new ∧ ∀ e ∈ new, e.time = s.now :=
    fun h => ⟨Nat.le_of_eq h.1.symm, h.2⟩
  cases h with
  | tick ms => exact ⟨Nat.le_add_right .., [], by simp, by simp⟩
  | beginLeader hstage hleader => exact hnow (.of_event rfl rfl rfl)
  | endLeader answer hstage hleader =>
    refine hnow (.trans ?_ (.enterOwnJobs _ _))
    exact .of_event rfl rfl rfl
  | spawnOwn hstage =>
    refine hnow (.trans ?_ (.enterOwnJobs _ _))
    exact .of_event rfl rfl rfl
  | spawnOther hstage => exact hnow (.of_event rfl rfl rfl)
  | probeRefused hstage htime => exact hnow (.of_event rfl rfl rfl)
  | probeAccepted hstage htime =>
    refine hnow (.trans ?_ (.rest _))
    exact .of_event rfl rfl rfl
  | release hstage hleader htime => exact hnow (.refl s)
  | join hstage hthread hjob hreport => exact hnow ⟨rfl, [], by simp, by simp⟩
  | start hthread => exact hnow (.of_event rfl rfl rfl)
  | finish ending hthread hjob => exact hnow (.of_event rfl rfl rfl)

theorem initial_events (p : Phase) (now : Nat) : (State.initial p now).events = [] := by
  unfold State.initial
  split <;> rfl

theorem initial_now (p : Phase) (now : Nat) : (State.initial p now).now = now := by
  unfold State.initial
  split <;> rfl

end Phase

/-! ### the moves of a run -/

variable {r t : Run} {m : RunMove}

/-- One move of a run from a state to the next. -/
inductive RunStep (r : Run) : RunMove → Run → Prop where
  | open {p : Phase} {rest : List Phase} : r.current = none → r.future = p :: rest →
      RunStep r .open
        { r with
          current := some (p, .initial p r.now)
          future := rest
          notices := r.notices ++ [.dispatching p.jobClass p.jobs.length] }
  | inPhase {p : Phase} {s s' : State} {m : Move} : r.current = some (p, s) → Step p s m s' →
      RunStep r (.inPhase m) { r with current := some (p, s') }
  | close {p : Phase} {s : State} : r.current = some (p, s) → s.stage = .closed →
      RunStep r .close
        { r with
          now := s.now
          past := r.past ++ [(p, s)]
          current := none
          notices := r.notices ++ s.notices ++
            [.tally (s.report p).jobClass (s.report p).successes (s.report p).failures] }

theorem runStep_of_apply (h : r.apply m = some t) : RunStep r m t := by
  cases m with
  | «open» =>
    simp only [Run.apply] at h
    split at h
    · rename_i p rest hcurrent hfuture
      obtain rfl := Option.some.inj h
      exact .open hcurrent hfuture
    · cases h
  | inPhase move =>
    simp only [Run.apply] at h
    split at h
    · rename_i p s hcurrent
      obtain ⟨s', hs', rfl⟩ := Option.map_eq_some_iff.mp h
      exact .inPhase hcurrent (step_of_apply hs')
    · cases h
  | close =>
    simp only [Run.apply] at h
    split at h
    · rename_i p s hcurrent
      split at h
      · rename_i hstage
        obtain rfl := Option.some.inj h
        exact .close hcurrent hstage
      · cases h
    · cases h

theorem Run.Reaches.invariant {I : Run → Prop} (h : Run.Reaches r t) (hr : I r)
    (hstep : ∀ {u v m}, I u → RunStep u m v → I v) : I t := by
  induction h with
  | refl => exact hr
  | step m _ hm ih => exact hstep ih (runStep_of_apply hm)

namespace Run

/-! ### the history -/

def begun (r : Run) : List (Phase × State) := r.past ++ r.current.toList

def numbered (l : List (Phase × State)) : List (Nat × Event) :=
  l.zipIdx.flatMap fun x => x.1.2.events.map (x.2, ·)

/-- What has happened so far, with the number of the phase that it happened in. -/
def history (r : Run) : List (Nat × Event) := numbered r.begun

def clock (r : Run) : Nat :=
  match r.current with
  | some (_, s) => s.now
  | none => r.now

theorem numbered_concat (l : List (Phase × State)) (x : Phase × State) :
    numbered (l ++ [x]) = numbered l ++ x.2.events.map (l.length, ·) := by
  simp [numbered, List.zipIdx_append]

end Run

theorem RunStep.history (h : RunStep r m t) : r.clock ≤ t.clock ∧
    ∃ new : List Event, t.history = r.history ++ new.map (r.past.length, ·) ∧ ∀ e ∈ new, e.time = r.clock := by
  cases h with
  | @«open» p rest hcurrent hfuture =>
    have hclock : r.clock = r.now := by rw [Run.clock, hcurrent]
    refine ⟨?_, [], ?_, by simp⟩
    · rw [hclock]
      exact Nat.le_of_eq (initial_now p r.now).symm
    · simp only [Run.history, Run.begun, hcurrent, Option.toList_some, Option.toList_none, Run.numbered_concat,
        initial_events, List.append_nil, List.map_nil]
  | @inPhase p s s' m hcurrent hstep =>
    obtain ⟨hnow, new, hevents, htimes⟩ := hstep.grows
    have hclock : r.clock = s.now := by rw [Run.clock, hcurrent]
    refine ⟨?_, new, ?_, ?_⟩
    · rw [hclock]
      exact hnow
    · simp only [Run.history, Run.begun, hcurrent, Option.toList_some, Run.numbered_concat, hevents, List.map_append,
        List.append_assoc]
    · rw [hclock]
      exact htimes
  | @close p s hcurrent hstage =>
    have hclock : r.clock = s.now := by rw [Run.clock, hcurrent]
    refine ⟨Nat.le_of_eq hclock, [], ?_, by simp⟩
    simp only [Run.history, Run.begun, hcurrent, Option.toList_some, Option.toList_none, List.append_nil, List.map_nil]

namespace Run

/-- The events of one phase, taken out of the history. -/
def eventsOf (r : Run) (k : Nat) : List Event := (r.history.filter (·.1 == k)).map (·.2)

theorem lt_of_mem_numbered {l : List (Phase × State)} {x : Nat × Event} (h : x ∈ numbered l) : x.1 < l.length := by
  obtain ⟨⟨y, k⟩, hy, hx⟩ := List.mem_flatMap.mp h
  obtain ⟨e, -, rfl⟩ := List.mem_map.mp hx
  exact (List.getElem?_eq_some_iff.mp (List.mem_zipIdx_iff_getElem?.mp hy)).1

theorem filter_numbered {l : List (Phase × State)} {k : Nat} {x : Phase × State} (h : l[k]? = some x) :
    ((numbered l).filter (·.1 == k)).map (·.2) = x.2.events := by
  induction l using List.reverseRecOn with
  | nil => cases h
  | append_singleton l y ih =>
    rw [numbered_concat, List.filter_append, List.map_append]
    have hk : k < (l ++ [y]).length := (List.getElem?_eq_some_iff.mp h).1
    rw [List.length_append, List.length_singleton] at hk
    rcases Nat.lt_succ_iff_lt_or_eq.mp hk with hlt | rfl
    · rw [List.getElem?_append_left hlt] at h
      have hlast : (y.2.events.map (l.length, ·)).filter (·.1 == k) = [] := by
        simp [List.filter_map, Function.comp_def, Nat.ne_of_gt hlt]
      rw [ih h, hlast, List.map_nil, List.append_nil]
    · rw [List.getElem?_concat_length] at h
      obtain rfl := Option.some.inj h
      have hfirst : (numbered l).filter (·.1 == l.length) = [] := by
        refine List.filter_eq_nil_iff.mpr fun x hx => ?_
        simpa using Nat.ne_of_lt (lt_of_mem_numbered hx)
      rw [hfirst, List.map_nil, List.nil_append, List.filter_map]
      simp [Function.comp_def]

theorem eventsOf_eq {k : Nat} {x : Phase × State} (h : r.begun[k]? = some x) : r.eventsOf k = x.2.events :=
  filter_numbered h

theorem mem_eventsOf {k : Nat} {e : Event} : e ∈ r.eventsOf k ↔ (k, e) ∈ r.history := by
  simp [eventsOf]

/-! ### the invariant -/

/-- A run keeps to the order of its phases. -/
structure InOrder (phases : List Phase) (r : Run) : Prop where
  phases_eq : r.begun.map (·.1) ++ r.future = phases
  past_closed : ∀ x ∈ r.past, x.2.stage = .closed
  reached : ∀ x ∈ r.begun, ∃ now, State.Reaches x.1 (.initial x.1 now) x.2
  clocked : ∀ x ∈ r.history, x.1 ≤ r.past.length ∧ x.2.time ≤ r.clock
  ordered : r.history.Pairwise fun x y => x.1 ≤ y.1 ∧ x.2.time ≤ y.2.time

namespace InOrder

variable {phases : List Phase}

theorem initial (phases : List Phase) : InOrder phases (.initial phases) where
  phases_eq := rfl
  past_closed := by simp [Run.initial]
  reached := by simp [Run.initial, begun]
  clocked := by simp [Run.initial, Run.history, begun, numbered]
  ordered := by simp [Run.initial, Run.history, begun, numbered]

theorem ordered_step (h : InOrder phases r) (hm : RunStep r m t) :
    t.history.Pairwise (fun x y => x.1 ≤ y.1 ∧ x.2.time ≤ y.2.time) ∧
      ∀ x ∈ t.history, x.1 ≤ r.past.length ∧ x.2.time ≤ t.clock := by
  obtain ⟨hclock, new, hhistory, htimes⟩ := hm.history
  have hnew : ∀ x ∈ new.map (r.past.length, ·), x.1 = r.past.length ∧ x.2.time = r.clock := by
    intro x hx
    obtain ⟨e, he, rfl⟩ := List.mem_map.mp hx
    exact ⟨rfl, htimes e he⟩
  rw [hhistory]
  constructor
  · refine List.pairwise_append.mpr ⟨h.ordered, ?_, fun x hx y hy => ?_⟩
    · refine List.pairwise_of_forall_mem_list fun x hx y hy => ?_
      obtain ⟨hx1, hx2⟩ := hnew x hx
      obtain ⟨hy1, hy2⟩ := hnew y hy
      exact ⟨Nat.le_of_eq (hx1.trans hy1.symm), Nat.le_of_eq (hx2.trans hy2.symm)⟩
    · obtain ⟨hy1, hy2⟩ := hnew y hy
      rw [hy1, hy2]
      exact h.clocked x hx
  · intro x hx
    rcases List.mem_append.mp hx with hx | hx
    · obtain ⟨hx1, hx2⟩ := h.clocked x hx
      exact ⟨hx1, Nat.le_trans hx2 hclock⟩
    · obtain ⟨hx1, hx2⟩ := hnew x hx
      exact ⟨Nat.le_of_eq hx1, hx2 ▸ hclock⟩

theorem step (h : InOrder phases r) (hm : RunStep r m t) : InOrder phases t := by
  obtain ⟨hordered, hclocked⟩ := h.ordered_step hm
  have hphases := h.phases_eq
  have hreached := h.reached
  cases hm with
  | @«open» p rest hcurrent hfuture =>
    refine ⟨?_, h.past_closed, fun x hx => ?_, hclocked, hordered⟩
    · simpa [begun, hcurrent, hfuture] using hphases
    · simp only [begun, Option.toList_some, List.mem_append, List.mem_singleton] at hx
      rcases hx with hx | rfl
      · exact hreached x (List.mem_append_left _ hx)
      · exact ⟨r.now, .refl _⟩
  | @inPhase p s s' m hcurrent hstep =>
    refine ⟨?_, h.past_closed, fun x hx => ?_, hclocked, hordered⟩
    · simpa [begun, hcurrent] using hphases
    · simp only [begun, Option.toList_some, List.mem_append, List.mem_singleton] at hx
      rcases hx with hx | rfl
      · exact hreached x (List.mem_append_left _ hx)
      · obtain ⟨now, hs⟩ := hreached (p, s) (by simp [begun, hcurrent])
        exact ⟨now, .step m hs (apply_of_step hstep)⟩
  | @close p s hcurrent hstage =>
    refine ⟨?_, fun x hx => ?_, fun x hx => ?_, fun x hx => ?_, hordered⟩
    · simpa [begun, hcurrent] using hphases
    · rcases List.mem_append.mp hx with hx | hx
      · exact h.past_closed x hx
      · rw [List.mem_singleton.mp hx]
        exact hstage
    · exact hreached x (by simpa [begun, hcurrent] using hx)
    · obtain ⟨hx1, hx2⟩ := hclocked x hx
      exact ⟨Nat.le_trans hx1 (by simp), hx2⟩

/-- **Every run keeps to the order of its phases.** -/
theorem of_reaches (h : Reaches (.initial phases) r) : InOrder phases r :=
  h.invariant (initial phases) fun hu hm => hu.step hm

end InOrder

end Run

end Fleet.FanOut
