import Mathlib.Data.List.Nodup
import Mathlib.Data.List.Perm.Subperm
import Fleet.Proofs.FanOut.Move

/-!
# The ledger of a phase

`Ledger p s` ties where everything is in a phase to what has happened so far: the history of each execution is the
one that its thread tells, the started threads and those still to be started are the jobs in the order of the
dispatcher, and each thread that has been joined has left the report of its own job.  Every move keeps the ledger
(`Ledger.move`), so it holds throughout every phase (`Ledger.of_reaches`).
-/

namespace Fleet.FanOut

open State

variable {p : Phase} {s t : State}

/-! ### the order of the jobs -/

theorem isOwn_iff {step : LeaderStep} (hleader : p.leader = some step) (job : Job) :
    isOwn p job = true ↔ job.host.id = step.job.host.id := by
  simp [isOwn, hleader]

theorem mem_ownJobs {i : Nat} : i ∈ ownJobs p ↔ ∃ job, p.jobs[i]? = some job ∧ isOwn p job = true := by
  simp [ownJobs, List.mem_zipIdx_iff_getElem?]

theorem ownJobs_of_leader_none (hleader : p.leader = none) : ownJobs p = [] := by
  simp [ownJobs, isOwn, hleader]

theorem order_perm (p : Phase) : (ownJobs p ++ otherJobs p).Perm (List.range p.jobs.length) := by
  have hsnd : p.jobs.zipIdx.map Prod.snd = List.range p.jobs.length := by
    rw [List.zipIdx_map_snd, List.range_eq_range']
  rw [ownJobs, otherJobs, ← List.map_append, ← hsnd]
  exact (List.filter_append_perm _ _).map _

theorem nodup_order (p : Phase) : (ownJobs p ++ otherJobs p).Nodup :=
  (order_perm p).nodup_iff.mpr List.nodup_range

theorem mem_order {i : Nat} : i ∈ ownJobs p ++ otherJobs p ↔ i < p.jobs.length := by
  rw [(order_perm p).mem_iff, List.mem_range]

/-! ### the executions of a phase -/

/-- The executions of a phase: of the leader's command, if there is one, and of each job. -/
def slots (p : Phase) : List Slot :=
  (p.leader.toList.map fun _ => .leader) ++ (List.range p.jobs.length).map .job

def tasks (p : Phase) : List (Slot × Job) :=
  (p.leader.toList.map fun step => (.leader, step.job)) ++ p.jobs.zipIdx.map fun x => (.job x.2, x.1)

theorem tasks_map_fst (p : Phase) : (tasks p).map Prod.fst = slots p := by
  have hjobs : p.jobs.zipIdx.map (fun x => Slot.job x.2) = (List.range p.jobs.length).map .job := by
    rw [List.range_eq_range', ← List.zipIdx_map_snd, List.map_map]
    rfl
  rw [tasks, slots, List.map_append, List.map_map, List.map_map, ← hjobs]
  rfl

theorem nodup_slots (p : Phase) : (slots p).Nodup := by
  refine List.nodup_append.mpr ⟨?_, ?_, ?_⟩
  · cases p.leader <;> simp
  · exact List.nodup_range.map fun _ _ => Slot.job.inj
  · simp

theorem mem_tasks_job {i : Nat} {job : Job} : (.job i, job) ∈ tasks p ↔ p.jobs[i]? = some job := by
  simp [tasks, List.mem_zipIdx_iff_getElem?]

theorem mem_tasks_leader {step : LeaderStep} (hleader : p.leader = some step) : (.leader, step.job) ∈ tasks p := by
  simp [tasks, hleader]

/-! ### histories -/

/-- What a history says about one execution. -/
inductive Mark where
  | spawned
  | began (time : Nat)
  | ended (ending : Ending) (time : Nat)

/-- What an event says about an execution, if it is about it. -/
def Event.mark? (slot : Slot) : Event → Option Mark
  | .began other _ time => if slot = other then some (.began time) else none
  | .ended other ending time => if slot = other then some (.ended ending time) else none
  | .spawned i _ => if slot = .job i then some .spawned else none
  | .probed .. | .rested _ => none

/-- What a history says about an execution, in the order of the events. -/
def marks (events : List Event) (slot : Slot) : List Mark := events.filterMap (Event.mark? slot)

def Thread.marks : Thread → List Mark
  | .waiting => []
  | .spawned => [.spawned]
  | .running start => [.spawned, .began start]
  | .ended start stop ending => [.spawned, .began start, .ended ending stop]

theorem thread_set {threads : List Thread} {i : Nat} (hi : i < threads.length) (new : Thread) (j : Nat) :
    (threads.set i new)[j]?.getD .waiting = if i = j then new else threads[j]?.getD .waiting := by
  by_cases hij : i = j
  · subst hij
    simp [hi]
  · simp [hij]

def Event.time : Event → Nat
  | .began _ _ time | .ended _ _ time | .spawned _ time | .probed _ _ _ time | .rested time => time

theorem timed_append {events : List Event} {e : Event} {now : Nat} (h : ∀ x ∈ events, x.time ≤ now)
    (he : e.time ≤ now) : ∀ x ∈ events ++ [e], x.time ≤ now := by
  intro x hx
  rcases List.mem_append.mp hx with hx | hx
  · exact h x hx
  · exact List.mem_singleton.mp hx ▸ he

theorem marks_append (events : List Event) (e : Event) (slot : Slot) :
    marks (events ++ [e]) slot = marks events slot ++ (e.mark? slot).toList := by
  rw [marks, marks, List.filterMap_append]
  cases h : e.mark? slot <;> simp [h]

theorem ended_mem_of_mark {events : List Event} {slot : Slot} {ending : Ending} {time : Nat}
    (h : Mark.ended ending time ∈ marks events slot) : Event.ended slot ending time ∈ events := by
  obtain ⟨e, he, hmark⟩ := List.mem_filterMap.mp h
  cases e with
  | ended other ending' time' =>
    simp only [Event.mark?, Option.ite_none_right_eq_some, Option.some.injEq, Mark.ended.injEq] at hmark
    obtain ⟨rfl, rfl, rfl⟩ := hmark
    exact he
  | _ => simp [Event.mark?] at hmark

theorem spawned_mem_of_mark {events : List Event} {i : Nat} (h : Mark.spawned ∈ marks events (.job i)) :
    ∃ time, Event.spawned i time ∈ events := by
  obtain ⟨e, he, hmark⟩ := List.mem_filterMap.mp h
  cases e with
  | spawned j time =>
    simp only [Event.mark?, Option.ite_none_right_eq_some, Slot.job.injEq] at hmark
    obtain ⟨rfl, -⟩ := hmark
    exact ⟨time, he⟩
  | _ => simp [Event.mark?] at hmark

/-! ### stages -/

/-- The positions whose threads are still to be started. -/
def Stage.unspawned (p : Phase) : Stage → List Nat
  | .opening | .leading _ => FanOut.ownJobs p ++ FanOut.otherJobs p
  | .ownJobs todo => todo ++ FanOut.otherJobs p
  | .probing _ | .resting _ => FanOut.otherJobs p
  | .otherJobs todo => todo
  | .joining _ | .closed => []

/-- Of the started threads, those still to be joined. -/
def Stage.unjoined (handles : List Nat) : Stage → List Nat
  | .joining todo => todo
  | .closed => []
  | _ => handles

/-- What has happened to the leader's command as long as it has not ended. -/
def Stage.leading? : Stage → Option (List Mark)
  | .opening => some []
  | .leading start => some [.began start]
  | _ => none

@[simp] theorem unspawned_joinAll (l : List Nat) : (Stage.joinAll l).unspawned p = [] := by
  cases l <;> rfl

@[simp] theorem unspawned_others (handles todo : List Nat) : (Stage.others handles todo).unspawned p = todo := by
  cases todo with
  | nil => exact unspawned_joinAll handles
  | cons => rfl

@[simp] theorem unjoined_joinAll (handles l : List Nat) : (Stage.joinAll l).unjoined handles = l := by
  cases l <;> rfl

@[simp] theorem unjoined_others (handles todo : List Nat) :
    (Stage.others handles todo).unjoined handles = handles := by
  cases todo with
  | nil => exact unjoined_joinAll handles handles
  | cons => rfl

@[simp] theorem leading?_joinAll (l : List Nat) : (Stage.joinAll l).leading? = none := by
  cases l <;> rfl

@[simp] theorem leading?_others (handles todo : List Nat) : (Stage.others handles todo).leading? = none := by
  cases todo with
  | nil => exact leading?_joinAll handles
  | cons => rfl

/-! ### the invariant -/

/-- A report is that of the job at a position, whose thread has ended. -/
def Reported (p : Phase) (threads : List Thread) (i : Nat) (report : JobReport) : Prop :=
  ∃ job start stop ending launched finished, p.jobs[i]? = some job ∧
    threads[i]? = some (.ended start stop ending) ∧ report = .ofJob job ending.state launched finished

/-- What has become of the leader's command: what the stage says as long as it has not ended, and then the marks of
its execution and the report. -/
def LeaderLedger (p : Phase) (leading : Option (List Mark)) (ms : List Mark) (report : Option JobReport) : Prop :=
  match p.leader, leading with
  | none, _ => ms = [] ∧ report = none
  | some _, some before => ms = before ∧ report = none
  | some step, none => ∃ start stop answer, ms = [.began start, .ended (.answered answer) stop] ∧
      report = some (.ofJob step.job (stateOf answer) start stop)

/-- Where everything is agrees with what has happened. -/
structure Ledger (p : Phase) (s : State) : Prop where
  threads_length : s.threads.length = p.jobs.length
  reports_length : s.reports.length = p.jobs.length
  timed : ∀ e ∈ s.events, e.time ≤ s.now
  /-- the executor has been called with jobs of the phase only -/
  begun : ∀ slot job time, .began slot job time ∈ s.events → (slot, job) ∈ tasks p
  leader : LeaderLedger p s.stage.leading? (marks s.events .leader) s.leader
  jobs : ∀ i, marks s.events (.job i) = (s.threads[i]?.getD .waiting).marks
  queue : s.handles ++ s.stage.unspawned p = ownJobs p ++ otherJobs p
  started : ∀ i, i ∈ s.handles ↔ s.threads[i]?.getD .waiting ≠ .waiting
  joined : ∀ i ∈ s.handles,
    i ∈ s.stage.unjoined s.handles ∨ ∃ report, s.reports[i]? = some (some report) ∧ Reported p s.threads i report

namespace Ledger

theorem blank (p : Phase) (now : Nat) : Ledger p (.blank p now) where
  threads_length := by simp [State.blank]
  reports_length := by simp [State.blank]
  timed := by simp [State.blank]
  begun := by simp [State.blank]
  leader := by
    cases hleader : p.leader <;> simp [LeaderLedger, hleader, State.blank, Stage.leading?, marks]
  jobs i := by
    by_cases hi : i < p.jobs.length <;> simp [State.blank, marks, Thread.marks, hi]
  queue := rfl
  started i := by
    by_cases hi : i < p.jobs.length <;> simp [State.blank, hi]
  joined := by simp [State.blank]

theorem tell (h : Ledger p s) (told : List Notice) : Ledger p (s.tell told) := { h with }

theorem exists_job (h : Ledger p s) {i : Nat} {thread : Thread} (hthread : s.threads[i]? = some thread) :
    ∃ job, p.jobs[i]? = some job := by
  have hlt := (List.getElem?_eq_some_iff.mp hthread).1
  rw [h.threads_length] at hlt
  exact ⟨_, List.getElem?_eq_getElem hlt⟩

/-- What is added to the history is no call of the executor, or one with a job of the phase. -/
theorem begun_append (h : Ledger p s) {e : Event}
    (he : ∀ slot job time, e = .began slot job time → (slot, job) ∈ tasks p) :
    ∀ slot job time, .began slot job time ∈ s.events ++ [e] → (slot, job) ∈ tasks p := by
  intro slot job time hmem
  rcases List.mem_append.mp hmem with hmem | hmem
  · exact h.begun slot job time hmem
  · exact he slot job time (List.mem_singleton.mp hmem).symm

theorem note (h : Ledger p s) {e : Event} (he : ∀ slot, e.mark? slot = none) (htime : e.time ≤ s.now) :
    Ledger p (s.note e) := by
  have hmarks : ∀ slot, marks (s.note e).events slot = marks s.events slot := fun slot => by
    rw [State.note, marks_append, he, Option.toList_none, List.append_nil]
  refine { h with timed := ?_, begun := h.begun_append ?_, leader := ?_, jobs := fun i => ?_ }
  · exact timed_append h.timed htime
  · rintro slot job time rfl
    exact absurd (he slot) (by simp [Event.mark?])
  · rw [hmarks]
    exact h.leader
  · rw [hmarks]
    exact h.jobs i

/-- The dispatcher may go to a stage at which the same threads are still to be started and to be joined. -/
theorem goTo (h : Ledger p s) {stage : Stage} (hspawn : stage.unspawned p = s.stage.unspawned p)
    (hjoin : stage.unjoined s.handles = s.stage.unjoined s.handles)
    (hleading : stage.leading? = s.stage.leading?) : Ledger p (s.goTo stage) := by
  refine { h with leader := ?_, queue := ?_, joined := ?_ }
  · simpa only [State.goTo, hleading] using h.leader
  · simpa only [State.goTo, hspawn] using h.queue
  · simpa only [State.goTo, hjoin] using h.joined

theorem tick (h : Ledger p s) (ms : Nat) : Ledger p { s with now := s.now + ms } :=
  { h with timed := fun e he => Nat.le_add_right_of_le (h.timed e he) }

theorem advance (h : Ledger p s) {i : Nat} {old new : Thread} {e : Event} {mark : Mark}
    (hold : s.threads[i]? = some old) (hmarks : new.marks = old.marks ++ [mark])
    (he : ∀ slot, e.mark? slot = if slot = .job i then some mark else none) (htime : e.time ≤ s.now)
    (hjob : ∀ slot job time, e = .began slot job time → (slot, job) ∈ tasks p) (hwaiting : old ≠ .waiting)
    (hended : ∀ start stop ending, old ≠ .ended start stop ending) :
    Ledger p { s with threads := s.threads.set i new, events := s.events ++ [e] } := by
  have hi : i < s.threads.length := (List.getElem?_eq_some_iff.mp hold).1
  have hnew : new ≠ .waiting := by
    rintro rfl
    cases old <;> simp [Thread.marks] at hmarks
  have hget := thread_set hi new
  refine { h with
    threads_length := ?_, timed := ?_, begun := h.begun_append hjob, leader := ?_, jobs := fun j => ?_
    started := fun j => ?_, joined := fun j hj => ?_ }
  · rw [List.length_set]
    exact h.threads_length
  · exact timed_append h.timed htime
  · rw [marks_append, he, if_neg (by simp), Option.toList_none, List.append_nil]
    exact h.leader
  · rw [marks_append, he, hget, h.jobs j]
    by_cases hij : i = j
    · subst hij
      simp [hold, hmarks]
    · simp [hij, Ne.symm hij]
  · rw [hget, h.started j]
    by_cases hij : i = j
    · subst hij
      simp [hold, hwaiting, hnew]
    · simp [hij]
  · -- a thread that has been joined has ended, so it is not the one that goes on
    rcases h.joined j hj with hj | ⟨report, hreport, job, start, stop, ending, launched, finished, hjob, hthread, hr⟩
    · exact .inl hj
    · have hij : i ≠ j := by
        rintro rfl
        exact hended start stop ending (Option.some.inj (hold.symm.trans hthread))
      refine .inr ⟨report, hreport, job, start, stop, ending, launched, finished, hjob, ?_, hr⟩
      rw [List.getElem?_set_ne hij]
      exact hthread

theorem next_waiting (h : Ledger p s) {i : Nat} {rest : List Nat} (hqueue : s.stage.unspawned p = i :: rest) :
    s.threads[i]? = some .waiting := by
  have horder : s.handles ++ i :: rest = ownJobs p ++ otherJobs p := hqueue ▸ h.queue
  have hi : i < s.threads.length := by
    rw [h.threads_length, ← mem_order, ← horder]
    simp
  have hwaiting : s.threads[i]?.getD .waiting = .waiting := by
    by_contra hne
    have hmem : i ∈ s.handles := (h.started i).mpr hne
    have hnodup := nodup_order p
    rw [← horder] at hnodup
    exact (List.nodup_append.mp hnodup).2.2 i hmem i (by simp) rfl
  rwa [List.getElem?_eq_getElem hi, Option.getD_some, ← Option.some_inj, ← List.getElem?_eq_getElem hi] at hwaiting

/-- The thread of the next job in the queue is started, and the dispatcher goes on to the rest of the queue. -/
theorem spawnThread (h : Ledger p s) {i : Nat} {rest : List Nat} {stage : Stage}
    (hqueue : s.stage.unspawned p = i :: rest) (hspawn : stage.unspawned p = rest)
    (hjoin : stage.unjoined (s.handles ++ [i]) = s.handles ++ [i]) (hleading : stage.leading? = s.stage.leading?) :
    Ledger p ((s.spawnThread i).goTo stage) := by
  have horder : s.handles ++ i :: rest = ownJobs p ++ otherJobs p := hqueue ▸ h.queue
  have hnext := h.next_waiting hqueue
  have hi : i < s.threads.length := (List.getElem?_eq_some_iff.mp hnext).1
  have hwaiting : s.threads[i]?.getD .waiting = .waiting := by rw [hnext, Option.getD_some]
  have hget := thread_set hi .spawned
  constructor
  · simpa [State.goTo, State.spawnThread, State.setThread, State.note] using h.threads_length
  · exact h.reports_length
  · exact timed_append h.timed (Nat.le_refl s.now)
  · exact h.begun_append nofun
  · simp only [State.goTo, State.spawnThread, State.setThread, State.note, marks_append, hleading]
    simpa [Event.mark?] using h.leader
  · intro j
    simp only [State.goTo, State.spawnThread, State.setThread, State.note, marks_append, hget, h.jobs j]
    by_cases hij : i = j
    · subst hij
      simp [hwaiting, Event.mark?, Thread.marks]
    · simp [hij, Ne.symm hij, Event.mark?]
  · simpa [State.goTo, State.spawnThread, State.setThread, State.note, hspawn] using horder
  · intro j
    simp only [State.goTo, State.spawnThread, State.setThread, State.note, hget, List.mem_append, h.started j,
      List.mem_singleton]
    by_cases hij : i = j
    · simp [hij]
    · simp [hij, Ne.symm hij]
  · intro j hj
    exact .inl (hjoin.symm ▸ hj)

theorem rest (h : Ledger p s) (hspawn : s.stage.unspawned p = otherJobs p)
    (hjoin : s.stage.unjoined s.handles = s.handles) (hleading : s.stage.leading? = none) : Ledger p s.rest :=
  (h.note (fun _ => rfl) (Nat.le_refl _)).goTo hspawn.symm hjoin.symm hleading.symm

theorem enterBarrier (h : Ledger p (s.goTo (.ownJobs []))) (step : LeaderStep) : Ledger p (s.enterBarrier step) := by
  rw [State.enterBarrier]
  split
  · exact (h.tell _).goTo rfl rfl rfl
  · exact h.rest rfl rfl rfl

theorem enterOwnJobs {todo : List Nat} (h : Ledger p (s.goTo (.ownJobs todo))) :
    Ledger p (s.enterOwnJobs p todo) := by
  rw [State.enterOwnJobs.eq_def]
  split
  · exact h.enterBarrier _
  · exact h

theorem joinedReport_eq_some {now : Nat} {job : Job} {thread : Thread} {report : JobReport} {told : List Notice}
    (h : joinedReport now job thread = some (report, told)) :
    ∃ start stop ending launched finished, thread = .ended start stop ending ∧
      report = .ofJob job ending.state launched finished := by
  cases thread with
  | ended start stop ending =>
    cases ending with
    | answered answer =>
      obtain ⟨rfl, -⟩ := Prod.mk.inj (Option.some.inj h)
      exact ⟨start, stop, _, start, stop, rfl, rfl⟩
    | died =>
      obtain ⟨rfl, -⟩ := Prod.mk.inj (Option.some.inj h)
      exact ⟨start, stop, _, now, now, rfl, rfl⟩
  | _ => cases h

/-- The next thread in the queue of joins has ended, and its report is written at the position of its job. -/
theorem join (h : Ledger p s) {i : Nat} {rest : List Nat} {job : Job} {thread : Thread} {report : JobReport}
    {told : List Notice} (hstage : s.stage = .joining (i :: rest)) (hthread : s.threads[i]? = some thread)
    (hjob : p.jobs[i]? = some job) (hreport : joinedReport s.now job thread = some (report, told)) :
    Ledger p { s with
      stage := .joinAll rest, reports := s.reports.set i (some report), notices := s.notices ++ told } := by
  have hi : i < s.reports.length := by
    rw [h.reports_length]
    exact (List.getElem?_eq_some_iff.mp hjob).1
  refine { h with reports_length := ?_, leader := ?_, queue := ?_, joined := fun j hj => ?_ }
  · rw [List.length_set]
    exact h.reports_length
  · have hled := h.leader
    rw [hstage] at hled
    rwa [leading?_joinAll]
  · have hqueue := h.queue
    rw [hstage] at hqueue
    rwa [unspawned_joinAll]
  · by_cases hij : i = j
    · subst hij
      obtain ⟨start, stop, ending, launched, finished, rfl, rfl⟩ := joinedReport_eq_some hreport
      exact .inr ⟨_, by simp [hi], job, start, stop, ending, launched, finished, hjob, hthread, rfl⟩
    · rcases h.joined j hj with hmem | ⟨r, hr, hreported⟩
      · rw [hstage] at hmem
        refine .inl ?_
        rw [unjoined_joinAll]
        exact (List.mem_cons.mp hmem).resolve_left (Ne.symm hij)
      · exact .inr ⟨r, by rw [List.getElem?_set_ne hij]; exact hr, hreported⟩

theorem beginLeader (h : Ledger p s) {step : LeaderStep} (hstage : s.stage = .opening)
    (hleader : p.leader = some step) (told : List Notice) :
    Ledger p { s with
      stage := .leading s.now, events := s.events ++ [.began .leader step.job s.now]
      notices := s.notices ++ told } := by
  have hled := h.leader
  simp only [LeaderLedger, hleader, hstage, Stage.leading?] at hled
  refine { h with
    timed := ?_, begun := h.begun_append ?_, leader := ?_, jobs := fun i => ?_, queue := ?_
    joined := fun i hi => .inl hi }
  · exact timed_append h.timed (Nat.le_refl s.now)
  · rintro _ _ _ ⟨⟩
    exact mem_tasks_leader hleader
  · simp [LeaderLedger, hleader, Stage.leading?, marks_append, Event.mark?, hled]
  · simpa [marks_append, Event.mark?] using h.jobs i
  · simpa [hstage, Stage.unspawned] using h.queue

theorem endLeader (h : Ledger p s) {step : LeaderStep} {start : Nat} (answer : Answer)
    (hstage : s.stage = .leading start) (hleader : p.leader = some step) (told : List Notice) :
    Ledger p
      ({ s with
        leader := some (.ofJob step.job (stateOf answer) start s.now)
        events := s.events ++ [Event.ended .leader (.answered answer) s.now]
        notices := s.notices ++ told }.goTo (.ownJobs (ownJobs p))) := by
  have hled := h.leader
  simp only [LeaderLedger, hleader, hstage, Stage.leading?] at hled
  refine { h with
    timed := ?_, begun := h.begun_append nofun, leader := ?_, jobs := fun i => ?_, queue := ?_
    joined := fun i hi => .inl hi }
  · exact timed_append h.timed (Nat.le_refl s.now)
  · simp only [LeaderLedger, hleader, State.goTo, Stage.leading?, marks_append, hled.1]
    exact ⟨start, s.now, answer, rfl, rfl⟩
  · simpa [State.goTo, marks_append, Event.mark?] using h.jobs i
  · simpa [State.goTo, hstage, Stage.unspawned] using h.queue

theorem move (h : Ledger p s) {m : Move} (hm : Step p s m t) : Ledger p t := by
  cases hm with
  | tick ms => exact h.tick ms
  | beginLeader hstage hleader => exact h.beginLeader hstage hleader _
  | endLeader answer hstage hleader => exact (h.endLeader answer hstage hleader _).enterOwnJobs
  | spawnOwn hstage =>
    exact (h.spawnThread (by rw [hstage]; rfl) rfl rfl (by rw [hstage]; rfl)).enterOwnJobs
  | spawnOther hstage =>
    exact h.spawnThread (by rw [hstage]; rfl) (unspawned_others ..) (unjoined_others ..)
      (by rw [hstage, leading?_others]; rfl)
  | @probeRefused step port time hstage hleader hport htime =>
    have hnote := h.note (e := .probed step.job.host.hostname port false s.now) (fun _ => rfl) (Nat.le_refl _)
    exact hnote.goTo (by rw [State.note, hstage]; rfl) (by rw [State.note, hstage]; rfl)
      (by rw [State.note, hstage]; rfl)
  | @probeAccepted step port time hstage hleader hport htime =>
    have hnote := h.note (e := .probed step.job.host.hostname port true s.now) (fun _ => rfl) (Nat.le_refl _)
    exact hnote.rest (by rw [State.note, hstage]; rfl) (by rw [State.note, hstage]; rfl)
      (by rw [State.note, hstage]; rfl)
  | release hstage hleader htime =>
    exact h.goTo (by rw [hstage, unspawned_others]; rfl) (by rw [hstage, unjoined_others]; rfl)
      (by rw [hstage, leading?_others]; rfl)
  | join hstage hthread hjob hreport => exact h.join hstage hthread hjob hreport
  | start hthread hjob =>
    refine h.advance hthread rfl (fun _ => rfl) (Nat.le_refl _) ?_ nofun nofun
    rintro _ _ _ ⟨⟩
    exact mem_tasks_job.mpr hjob
  | @finish i start job ending hthread hjob =>
    have hevent : ∀ slot job time, Event.ended (.job i) ending s.now = .began slot job time →
        (slot, job) ∈ tasks p := nofun
    exact (h.advance hthread rfl (fun _ => rfl) (Nat.le_refl _) hevent nofun nofun).tell _

theorem initial (p : Phase) (now : Nat) : Ledger p (.initial p now) := by
  rw [State.initial]
  split
  · exact blank p now
  · rename_i hleader
    have hnone := ownJobs_of_leader_none hleader
    refine { blank p now with leader := ?_, queue := ?_, joined := ?_ }
    · simp [LeaderLedger, hleader, enterOtherJobs, State.goTo, State.blank, marks]
    · simp [hnone, enterOtherJobs, State.goTo, State.blank]
    · simp [enterOtherJobs, State.goTo, State.blank]

/-- **The ledger holds throughout a phase.** -/
theorem of_reaches {now : Nat} (h : Reaches p (.initial p now) s) : Ledger p s :=
  h.invariant (initial p now) fun hu hm => hu.move hm

end Ledger

end Fleet.FanOut
