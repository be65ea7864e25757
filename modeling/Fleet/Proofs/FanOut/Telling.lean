import Mathlib.Data.List.Perm.Basic
import Fleet.Proofs.FanOut.Sequence
import Fleet.Proofs.FanOut.Threads

/-!
# What a run tells

The notices of a run come from the dispatcher, from the threads and from the joining of threads, and threads tell theirs
whenever they happen to end.  But which notices there are depends on nothing but how each execution ended
(`told_once`).  `Tidings p s` keeps account of what has been told in a phase: what the marks of each execution say, the
notice of the barrier once the dispatcher has come to it, and one notice for each joined thread that died.  At the
end of the phase the account is regrouped by executions (`Tidings.closed`).
-/

namespace Fleet.FanOut

open State

/-! ### what there is to tell -/

def failureOf (job : Job) (exitCode : Option Int) : Fault :=
  if job.jobClass = .sync then .syncFailed job.host.id else .commandFailed job.host.id exitCode

/-- What is told of an execution in all: nothing of a success, of a failure that the job has failed, of a fault in
front of this that the job could not be executed, and of a thread that has died this alone. -/
def executionNotices (job : Job) : Ending → List Notice
  | .answered (.ok .succeeded) => []
  | .answered (.ok (.failed exitCode)) => [.jobFailed (failureOf job exitCode) job.log]
  | .answered (.error fault) => [.notExecuted job.host.id fault, .jobFailed (failureOf job none) job.log]
  | .died => [.threadDied job.host.id]

/-- What is told of a leader step besides what its command comes to. -/
def leaderNotices (step : LeaderStep) : List Notice :=
  .runningLeader step.job.host.id :: step.barrier.port.toList.map (.waitingForLeader step.job.host.hostname)

/-- How many jobs succeed, if the executions end in the given ways. -/
def successes (p : Phase) (results : Slot → Ending) : Nat :=
  (List.range p.jobs.length).countP fun i => (results (.job i)).isSuccess

/-- How many executions do not, the leader's command included. -/
def failures (p : Phase) (results : Slot → Ending) : Nat := (slots p).countP fun slot => !(results slot).isSuccess

/-- What is told of a phase in all, if its executions end in the given ways. -/
def phaseNotices (p : Phase) (results : Slot → Ending) : List Notice :=
  .dispatching p.jobClass p.jobs.length ::
    (p.leader.toList.flatMap leaderNotices ++
      ((tasks p).flatMap fun x => executionNotices x.2 (results x.1)) ++
      [.tally p.jobClass (successes p results) (failures p results)])

theorem successes_add_failures (p : Phase) (results : Slot → Ending) :
    successes p results + failures p results =
      p.jobs.length + if p.leader.isSome && !(results .leader).isSuccess then 1 else 0 := by
  have hjobs : p.jobs.length = successes p results +
      (List.range p.jobs.length).countP fun i => !(results (.job i)).isSuccess := by
    have hlength := List.length_eq_countP_add_countP (fun i => (results (.job i)).isSuccess)
      (l := List.range p.jobs.length)
    simpa [successes] using hlength
  have hleader : (p.leader.toList.map fun _ => Slot.leader).countP (fun slot => !(results slot).isSuccess) =
      if p.leader.isSome && !(results .leader).isSuccess then 1 else 0 := by
    cases p.leader with
    | none => rfl
    | some step => simp [List.countP_singleton]
  have hfailures : failures p results =
      (if p.leader.isSome && !(results .leader).isSuccess then 1 else 0) +
        (List.range p.jobs.length).countP fun i => !(results (.job i)).isSuccess := by
    rw [failures, slots, List.countP_append, hleader, List.countP_map]
    rfl
  rw [hfailures]
  omega

/-! ### what is told when -/

/-- What is told of an execution when it begins. -/
def beginNotices (slot : Slot) (job : Job) : List Notice :=
  if slot = .leader then [.runningLeader job.host.id] else []

@[simp] theorem beginNotices_job (i : Nat) (job : Job) : beginNotices (.job i) job = [] := if_neg nofun

/-- What is told of a thread when it is joined. -/
def Ending.joinNotices (job : Job) : Ending → List Notice
  | .answered _ => []
  | .died => [.threadDied job.host.id]

/-- What a mark of an execution says when it is made. -/
def Mark.notices (slot : Slot) (job : Job) : Mark → List Notice
  | .spawned => []
  | .began _ => beginNotices slot job
  | .ended ending _ => ending.notices job

/-- What has been told of the executions of a phase that has a history. -/
def told (p : Phase) (events : List Event) : List Notice :=
  (tasks p).flatMap fun x => (marks events x.1).flatMap (Mark.notices x.1 x.2)

/-- What is told when the dispatcher comes to the barrier. -/
def barrierNotices (p : Phase) : List Notice :=
  p.leader.toList.flatMap fun step =>
    step.barrier.port.toList.map (.waitingForLeader step.job.host.hostname)

def Stage.barrierNotices (p : Phase) : Stage → List Notice
  | .opening | .leading _ | .ownJobs _ => []
  | .probing _ | .resting _ | .otherJobs _ | .joining _ | .closed => FanOut.barrierNotices p

/-- What has been told of a joined thread. -/
def joinNotices (p : Phase) (x : Nat × Ending) : List Notice := p.jobs[x.1]?.toList.flatMap x.2.joinNotices

theorem fault?_failed (job : Job) (exitCode : Option Int) :
    (JobState.failed exitCode).fault? job.jobClass job.host.id = some (failureOf job exitCode) := by
  rw [failureOf]
  cases job.jobClass <;> rfl

/-- What a thread tells when it ends and what is told when it is joined is all that is told of its execution. -/
theorem Ending.notices_append (job : Job) (ending : Ending) :
    ending.notices job ++ ending.joinNotices job = executionNotices job ending := by
  rcases ending with (fault | _ | exitCode) | _
  · simp [Ending.notices, Ending.joinNotices, answerNotices, stateOf, executionNotices, fault?_failed]
  · simp [Ending.notices, Ending.joinNotices, answerNotices, stateOf, executionNotices, JobState.fault?]
  · simp [Ending.notices, Ending.joinNotices, answerNotices, stateOf, executionNotices, fault?_failed]
  · rfl

/-! ### the executions of a phase -/

section Phase

variable {p : Phase} {s t : State} {m : Move}

theorem flatMap_tasks {α : Type} (p : Phase) (f : Slot × Job → List α) :
    (tasks p).flatMap f = (p.leader.toList.flatMap fun step => f (.leader, step.job)) ++
      p.jobs.zipIdx.flatMap fun x => f (.job x.2, x.1) := by
  rw [tasks, List.flatMap_append, List.flatMap_map, List.flatMap_map]

theorem flatMap_key {α β γ : Type} [DecidableEq α] {l : List (α × β)} (hl : (l.map Prod.fst).Nodup)
    (f : α × β → List γ) {x : α × β} (hx : x ∈ l) : (l.flatMap fun y => if y.1 = x.1 then f y else []) = f x := by
  induction l with
  | nil => cases hx
  | cons y l ih =>
    rw [List.map_cons, List.nodup_cons] at hl
    rw [List.flatMap_cons]
    rcases List.mem_cons.mp hx with rfl | hx
    · have hrest : (l.flatMap fun z => if z.1 = x.1 then f z else []) = [] := by
        refine List.flatMap_eq_nil_iff.mpr fun z hz => if_neg fun heq => hl.1 ?_
        exact List.mem_map.mpr ⟨z, hz, heq⟩
      rw [hrest, if_pos rfl, List.append_nil]
    · have hne : y.1 ≠ x.1 := fun heq => hl.1 (List.mem_map.mpr ⟨x, hx, heq.symm⟩)
      rw [if_neg hne, List.nil_append, ih hl.2 hx]

theorem told_concat (p : Phase) (events : List Event) (e : Event) :
    (told p (events ++ [e])).Perm
      (told p events ++ (tasks p).flatMap fun x => (e.mark? x.1).toList.flatMap (Mark.notices x.1 x.2)) := by
  simp only [told, marks_append, List.flatMap_append]
  exact (List.flatMap_append_perm _ _ _).symm

theorem told_silent {events : List Event} {e : Event}
    (he : ∀ slot job, (e.mark? slot).toList.flatMap (Mark.notices slot job) = []) :
    (told p (events ++ [e])).Perm (told p events) := by
  have hnone : ((tasks p).flatMap fun x => (e.mark? x.1).toList.flatMap (Mark.notices x.1 x.2)) = [] :=
    List.flatMap_eq_nil_iff.mpr fun x _ => he x.1 x.2
  simpa only [hnone, List.append_nil] using told_concat p events e

theorem told_mark (events : List Event) (e : Event) (mark : Mark) {slot : Slot} {job : Job}
    (hslot : (slot, job) ∈ tasks p) (he : ∀ other, e.mark? other = if other = slot then some mark else none) :
    (told p (events ++ [e])).Perm (told p events ++ mark.notices slot job) := by
  have hnodup : ((tasks p).map Prod.fst).Nodup := tasks_map_fst p ▸ nodup_slots p
  have hone : ((tasks p).flatMap fun x => (e.mark? x.1).toList.flatMap (Mark.notices x.1 x.2)) =
      mark.notices slot job := by
    rw [← flatMap_key hnodup (fun x => mark.notices x.1 x.2) hslot]
    refine congrArg (fun f => (tasks p).flatMap f) (funext fun x => ?_)
    rw [he]
    by_cases hx : x.1 = slot <;> simp [hx]
  simpa only [hone] using told_concat p events e

/-! ### the account -/

@[simp] theorem barrierNotices_joinAll (todo : List Nat) :
    (Stage.joinAll todo).barrierNotices p = barrierNotices p := by
  cases todo <;> rfl

@[simp] theorem barrierNotices_others (handles todo : List Nat) :
    (Stage.others handles todo).barrierNotices p = barrierNotices p := by
  cases todo with
  | nil => exact barrierNotices_joinAll handles
  | cons => rfl

theorem joinedReport_ended {now start stop : Nat} {job : Job} {ending : Ending} {report : JobReport}
    {told : List Notice} (h : joinedReport now job (.ended start stop ending) = some (report, told)) :
    told = ending.joinNotices job := by
  cases ending with
  | answered answer => exact (Prod.mk.inj (Option.some.inj h)).2.symm
  | died => exact (Prod.mk.inj (Option.some.inj h)).2.symm

theorem perm_append_left {α : Type} {l first first' last new : List α} (h : l.Perm (first ++ last))
    (hfirst : first'.Perm (first ++ new)) : (l ++ new).Perm (first' ++ last) := by
  refine (h.append_right new).trans (.trans ?_ (hfirst.symm.append_right last))
  rw [List.append_assoc, List.append_assoc]
  exact List.perm_append_comm.append_left first

theorem perm_append_append {α : Type} {a b c d : List α} : ((a ++ b) ++ (c ++ d)).Perm ((a ++ c) ++ (b ++ d)) := by
  rw [List.append_assoc, List.append_assoc]
  exact (List.perm_append_comm_assoc b c d).append_left a

/-- What has been told in a phase, and which threads have been joined, with how they ended. -/
structure Tidings (p : Phase) (s : State) (joined : List (Nat × Ending)) : Prop where
  handles : s.handles = joined.map Prod.fst ++ s.stage.unjoined s.handles
  ended : ∀ x ∈ joined, ∃ start stop, s.threads[x.1]? = some (.ended start stop x.2)
  notices : s.notices.Perm (told p s.events ++ (s.stage.barrierNotices p ++ joined.flatMap (joinNotices p)))

namespace Tidings

variable {joined : List (Nat × Ending)}

theorem blank (p : Phase) (now : Nat) : Tidings p (.blank p now) [] where
  handles := rfl
  ended := by simp
  notices := by simp [State.blank, Stage.barrierNotices, told, marks]

theorem initial (p : Phase) (now : Nat) : Tidings p (.initial p now) [] := by
  rw [State.initial]
  split
  · exact blank p now
  · rename_i hleader
    have hbarrier : barrierNotices p = [] := by simp [barrierNotices, hleader]
    refine { blank p now with handles := ?_, notices := ?_ }
    · simp [enterOtherJobs, State.goTo, State.blank]
    · simp [enterOtherJobs, State.goTo, State.blank, hbarrier, told, marks]

/-- The dispatcher may go on to a stage at which the same has been told and as many threads are to be joined. -/
theorem goTo (h : Tidings p s joined) {stage : Stage} (hbarrier : stage.barrierNotices p = s.stage.barrierNotices p)
    (hjoin : stage.unjoined s.handles = s.stage.unjoined s.handles) : Tidings p (s.goTo stage) joined := by
  refine { h with handles := ?_, notices := ?_ }
  · simpa only [State.goTo, hjoin] using h.handles
  · simpa only [State.goTo, hbarrier] using h.notices

theorem note (h : Tidings p s joined) {e : Event}
    (he : ∀ slot job, (e.mark? slot).toList.flatMap (Mark.notices slot job) = []) : Tidings p (s.note e) joined :=
  { h with notices := h.notices.trans ((told_silent he).symm.append_right _) }

theorem rest (h : Tidings p s joined) (hbarrier : s.stage.barrierNotices p = FanOut.barrierNotices p)
    (hjoin : s.stage.unjoined s.handles = s.handles) : Tidings p s.rest joined :=
  (h.note fun _ _ => rfl).goTo hbarrier.symm hjoin.symm

theorem enterBarrier {step : LeaderStep} (h : Tidings p (s.goTo (.ownJobs [])) joined)
    (hleader : p.leader = some step) : Tidings p (s.enterBarrier step) joined := by
  have hnotices := h.notices
  rw [State.enterBarrier]
  split
  · rename_i port hport
    have hbarrier : FanOut.barrierNotices p = [.waitingForLeader step.job.host.hostname port] := by
      simp [FanOut.barrierNotices, hleader, hport]
    refine { h with notices := ?_ }
    simp only [State.goTo, State.tell, Stage.barrierNotices, hbarrier, ← List.append_assoc]
    exact perm_append_left hnotices (.refl _)
  · rename_i hport
    have hbarrier : FanOut.barrierNotices p = [] := by simp [FanOut.barrierNotices, hleader, hport]
    exact h.rest hbarrier.symm rfl

theorem enterOwnJobs {todo : List Nat} (h : Tidings p (s.goTo (.ownJobs todo)) joined) :
    Tidings p (s.enterOwnJobs p todo) joined := by
  rw [State.enterOwnJobs.eq_def]
  split
  · rename_i step hleader
    exact h.enterBarrier hleader
  · exact h

theorem spawnThread (h : Tidings p s joined) {i : Nat} {stage : Stage} (hjoin : s.stage.unjoined s.handles = s.handles)
    (hjoin' : stage.unjoined (s.handles ++ [i]) = s.handles ++ [i])
    (hbarrier : stage.barrierNotices p = s.stage.barrierNotices p) :
    Tidings p ((s.spawnThread i).goTo stage) joined := by
  -- no thread is joined before all threads have been started
  have hnone : joined.map Prod.fst = [] := by
    have hhandles := h.handles
    rwa [hjoin, List.self_eq_append_left] at hhandles
  have htold : (told p (s.events ++ [.spawned i s.now])).Perm (told p s.events) := by
    refine told_silent fun slot job => ?_
    by_cases hslot : slot = .job i <;> simp [Event.mark?, Mark.notices, hslot]
  constructor
  · simp [State.goTo, State.spawnThread, State.setThread, State.note, hnone, hjoin']
  · rw [List.map_eq_nil_iff.mp hnone]
    simp
  · simp only [State.goTo, State.spawnThread, State.setThread, State.note, hbarrier]
    exact h.notices.trans (htold.symm.append_right _)

theorem beginLeader (h : Tidings p s joined) {step : LeaderStep} (hstage : s.stage = .opening)
    (hleader : p.leader = some step) :
    Tidings p
      { s with
        stage := .leading s.now
        events := s.events ++ [.began .leader step.job s.now]
        notices := s.notices ++ [.runningLeader step.job.host.id] } joined := by
  have hhandles := h.handles
  have hnotices := h.notices
  rw [hstage] at hhandles hnotices
  have htold := told_mark s.events (.began .leader step.job s.now) (.began s.now) (mem_tasks_leader hleader) fun _ => rfl
  exact ⟨hhandles, h.ended, perm_append_left hnotices htold⟩

theorem endLeader (h : Tidings p s joined) {step : LeaderStep} {start : Nat} (answer : Answer)
    (hstage : s.stage = .leading start) (hleader : p.leader = some step) :
    Tidings p
      ({ s with
        leader := some (.ofJob step.job (stateOf answer) start s.now)
        events := s.events ++ [Event.ended .leader (.answered answer) s.now]
        notices := s.notices ++ answerNotices step.job answer }.goTo (.ownJobs (ownJobs p))) joined := by
  have hhandles := h.handles
  have hnotices := h.notices
  rw [hstage] at hhandles hnotices
  have htold := told_mark s.events (.ended .leader (.answered answer) s.now) (.ended (.answered answer) s.now)
    (mem_tasks_leader hleader) fun _ => rfl
  exact ⟨hhandles, h.ended, perm_append_left hnotices htold⟩

theorem join (h : Tidings p s joined) {i : Nat} {rest : List Nat} {job : Job} {thread : Thread} {report : JobReport}
    {told : List Notice} (hstage : s.stage = .joining (i :: rest)) (hthread : s.threads[i]? = some thread)
    (hjob : p.jobs[i]? = some job) (hreport : joinedReport s.now job thread = some (report, told)) :
    ∃ ending, Tidings p
      { s with
        stage := .joinAll rest
        reports := s.reports.set i (some report)
        notices := s.notices ++ told } (joined ++ [(i, ending)]) := by
  obtain ⟨start, stop, ending, -, -, rfl, -⟩ := Ledger.joinedReport_eq_some hreport
  obtain rfl := joinedReport_ended hreport
  have htold : joinNotices p (i, ending) = ending.joinNotices job := by simp [joinNotices, hjob]
  refine ⟨ending, ?_, fun x hx => ?_, ?_⟩
  · have hhandles := h.handles
    rw [hstage, Stage.unjoined] at hhandles
    simpa only [unjoined_joinAll, List.map_append, List.map_cons, List.map_nil, List.append_assoc,
      List.singleton_append] using hhandles
  · rcases List.mem_append.mp hx with hx | hx
    · exact h.ended x hx
    · obtain rfl := List.mem_singleton.mp hx
      exact ⟨start, stop, hthread⟩
  · have hnotices := h.notices
    rw [hstage, Stage.barrierNotices] at hnotices
    simpa only [barrierNotices_joinAll, List.flatMap_append, List.flatMap_singleton, htold, List.append_assoc] using
      hnotices.append_right (ending.joinNotices job)

theorem step (h : Tidings p s joined) (hledger : Ledger p s) (hm : Step p s m t) :
    ∃ joined', Tidings p t joined' := by
  -- the threads that have been joined have ended, and no move makes a difference to them any more
  have hended : ∀ x ∈ joined, ∃ start stop, t.threads[x.1]? = some (.ended start stop x.2) := by
    intro x hx
    obtain ⟨start, stop, hthread⟩ := h.ended x hx
    exact ⟨start, stop, hm.ended hledger hthread⟩
  cases hm with
  | tick ms => exact ⟨joined, { h with }⟩
  | beginLeader hstage hleader => exact ⟨joined, h.beginLeader hstage hleader⟩
  | endLeader answer hstage hleader => exact ⟨joined, (h.endLeader answer hstage hleader).enterOwnJobs⟩
  | spawnOwn hstage =>
    refine ⟨joined, (h.spawnThread ?_ rfl ?_).enterOwnJobs⟩
    · rw [hstage]; rfl
    · rw [hstage]; rfl
  | spawnOther hstage =>
    refine ⟨joined, h.spawnThread ?_ (unjoined_others ..) ?_⟩
    · rw [hstage]; rfl
    · rw [hstage, barrierNotices_others]; rfl
  | probeRefused hstage hleader hport htime =>
    refine ⟨joined, (h.note fun _ _ => rfl).goTo ?_ ?_⟩
    · rw [State.note, hstage]; rfl
    · rw [State.note, hstage]; rfl
  | probeAccepted hstage hleader hport htime =>
    refine ⟨joined, (h.note (e := .probed _ _ true s.now) fun _ _ => rfl).rest ?_ ?_⟩
    · rw [State.note, hstage]; rfl
    · rw [State.note, hstage]; rfl
  | release hstage hleader htime =>
    refine ⟨joined, h.goTo ?_ ?_⟩
    · rw [hstage, barrierNotices_others]; rfl
    · rw [hstage, unjoined_others]; rfl
  | join hstage hthread hjob hreport =>
    obtain ⟨ending, hjoin⟩ := h.join hstage hthread hjob hreport
    exact ⟨_, hjoin⟩
  | @start i job hthread hjob =>
    have hsilent : ∀ slot other,
        ((Event.began (.job i) job s.now).mark? slot).toList.flatMap (Mark.notices slot other) = [] := by
      intro slot other
      by_cases hslot : slot = .job i <;> simp [Event.mark?, Mark.notices, hslot]
    exact ⟨joined, { h.note hsilent with ended := hended }⟩
  | @finish i start job ending hthread hjob =>
    have htold := told_mark s.events (.ended (.job i) ending s.now) (.ended ending s.now) (mem_tasks_job.mpr hjob)
      fun _ => rfl
    exact ⟨joined, h.handles, hended, perm_append_left h.notices htold⟩

theorem of_reaches {now : Nat} (h : Reaches p (.initial p now) s) : ∃ joined, Tidings p s joined := by
  have hboth : Ledger p s ∧ ∃ joined, Tidings p s joined := by
    refine h.invariant (I := fun u => Ledger p u ∧ ∃ joined, Tidings p u joined) ⟨.initial p now, [], initial p now⟩ ?_
    rintro u v m ⟨hledger, joined, hu⟩ hm
    exact ⟨hledger.move hm, hu.step hledger hm⟩
  exact hboth.2

end Tidings

/-! ### the end of a phase -/

theorem Ledger.closed_told (h : Ledger p s) (hclosed : s.stage = .closed) {slot : Slot} {job : Job} {ending : Ending}
    (hslot : (slot, job) ∈ tasks p) (hending : endings slot s.events = [ending]) :
    (marks s.events slot).flatMap (Mark.notices slot job) =
      beginNotices slot job ++ ending.notices job := by
  rw [endings_eq] at hending
  rcases List.mem_append.mp hslot with hslot | hslot
  · obtain ⟨step, hstep, heq⟩ := List.mem_map.mp hslot
    obtain ⟨rfl, rfl⟩ := Prod.mk.inj heq
    obtain ⟨start, stop, answer, hmarks, -⟩ := h.closed_leader hclosed (Option.mem_toList.mp hstep)
    rw [hmarks] at hending ⊢
    obtain rfl : Ending.answered answer = ending := List.singleton_inj.mp hending
    simp [Mark.notices]
  · obtain ⟨⟨job, i⟩, hjob, heq⟩ := List.mem_map.mp hslot
    obtain ⟨rfl, rfl⟩ := Prod.mk.inj heq
    have hi := (List.getElem?_eq_some_iff.mp (List.mem_zipIdx_iff_getElem?.mp hjob)).1
    obtain ⟨start, stop, ending', hmarks⟩ := h.closed_marks hclosed hi
    rw [hmarks] at hending ⊢
    obtain rfl : ending' = ending := List.singleton_inj.mp hending
    simp [Mark.notices]

variable {joined : List (Nat × Ending)} {results : Slot → Ending}

/-- What has been told of joined threads at the end of a phase is what there is to tell of each execution. -/
theorem Tidings.closed_joined (h : Tidings p s joined) (hledger : Ledger p s) (hclosed : s.stage = .closed)
    (hresults : ∀ slot ∈ slots p, endings slot s.events = [results slot]) :
    (joined.flatMap (joinNotices p)).Perm ((tasks p).flatMap fun x => (results x.1).joinNotices x.2) := by
  have hpositions : (joined.map Prod.fst).Perm (List.range p.jobs.length) := by
    have hhandles := h.handles
    have hqueue := hledger.queue
    rw [hclosed] at hhandles hqueue
    rw [Stage.unjoined, List.append_nil] at hhandles
    rw [Stage.unspawned, List.append_nil, hhandles] at hqueue
    exact hqueue ▸ order_perm p
  have hjoined : joined.flatMap (joinNotices p) =
      (joined.map Prod.fst).flatMap fun i => joinNotices p (i, results (.job i)) := by
    rw [List.flatMap_map]
    refine List.flatMap_congr fun x hx => ?_
    obtain ⟨start, stop, hthread⟩ := h.ended x hx
    have hi : x.1 ∈ List.range p.jobs.length := hpositions.subset (List.mem_map_of_mem hx)
    have hslot := hresults (.job x.1) (List.mem_append_right _ (List.mem_map_of_mem hi))
    rw [hledger.endings_of_ended hthread] at hslot
    rw [← List.singleton_inj.mp hslot]
  have hleader : (p.leader.toList.flatMap fun step => (results .leader).joinNotices step.job) = [] := by
    refine List.flatMap_eq_nil_iff.mpr fun step hstep => ?_
    obtain ⟨-, -, answer, hanswer, -⟩ := hledger.closed_answered hclosed (Option.mem_toList.mp hstep)
    have hslot : Slot.leader ∈ slots p := List.mem_append_left _ (List.mem_map_of_mem hstep)
    rw [hresults _ hslot] at hanswer
    rw [List.singleton_inj.mp hanswer]
    rfl
  have hjobs : ((List.range p.jobs.length).flatMap fun i => joinNotices p (i, results (.job i))) =
      p.jobs.zipIdx.flatMap fun x => (results (.job x.2)).joinNotices x.1 := by
    rw [List.range_eq_range', ← List.zipIdx_map_snd, List.flatMap_map]
    refine List.flatMap_congr fun x hx => ?_
    simp [joinNotices, List.mem_zipIdx_iff_getElem?.mp hx]
  rw [hjoined, flatMap_tasks, hleader, List.nil_append, ← hjobs]
  exact hpositions.flatMap_right _

theorem leaderNotices_eq (p : Phase) :
    p.leader.toList.flatMap leaderNotices =
      ((tasks p).flatMap fun x => beginNotices x.1 x.2) ++ barrierNotices p := by
  have hjobs : (p.jobs.zipIdx.flatMap fun x => beginNotices (.job x.2) x.1) = [] :=
    List.flatMap_eq_nil_iff.mpr fun x _ => beginNotices_job x.2 x.1
  rw [flatMap_tasks, hjobs, barrierNotices]
  cases p.leader with
  | none => rfl
  | some step => simp [leaderNotices, beginNotices]

theorem Tidings.closed (h : Tidings p s joined) (hledger : Ledger p s) (hclosed : s.stage = .closed)
    (hresults : ∀ slot ∈ slots p, endings slot s.events = [results slot]) :
    s.notices.Perm
      (p.leader.toList.flatMap leaderNotices ++ (tasks p).flatMap fun x => executionNotices x.2 (results x.1)) := by
  have htold : told p s.events = (tasks p).flatMap fun x => beginNotices x.1 x.2 ++ (results x.1).notices x.2 := by
    refine List.flatMap_congr fun x hx => hledger.closed_told hclosed hx (hresults x.1 ?_)
    exact tasks_map_fst p ▸ List.mem_map_of_mem hx
  have hexecutions : ((tasks p).flatMap fun x => executionNotices x.2 (results x.1)) =
      (tasks p).flatMap fun x => (results x.1).notices x.2 ++ (results x.1).joinNotices x.2 := by
    simp only [Ending.notices_append]
  have hnotices := h.notices
  rw [hclosed, Stage.barrierNotices, htold] at hnotices
  rw [leaderNotices_eq, hexecutions]
  -- each execution gets together what was told of it at once and what was told when its thread was joined
  have hregrouped := (List.flatMap_append_perm (tasks p) (fun x => beginNotices x.1 x.2)
    fun x => (results x.1).notices x.2).symm.append
      ((h.closed_joined hledger hclosed hresults).append_left (barrierNotices p))
  refine hnotices.trans (hregrouped.trans (perm_append_append.trans ?_))
  exact (List.flatMap_append_perm _ _ _).append_left _

/-- A report is made of a task and of how its execution ended, once. -/
def ReportOf (events : List Event) (report : JobReport) (x : Slot × Job) : Prop :=
  ∃ ending launched finished, endings x.1 events = [ending] ∧ report = .ofJob x.2 ending.state launched finished

theorem Ledger.closed_leaderTask (h : Ledger p s) (hclosed : s.stage = .closed) :
    List.Forall₂ (ReportOf s.events) (s.report p).leader.toList
      (p.leader.toList.map fun step => (.leader, step.job)) := by
  cases hleader : p.leader with
  | none =>
    rw [State.report, h.leader_eq_none hleader]
    exact .nil
  | some step =>
    obtain ⟨start, stop, answer, hendings, hreport⟩ := h.closed_answered hclosed hleader
    rw [State.report, hreport]
    exact .cons ⟨.answered answer, start, stop, hendings, rfl⟩ .nil

theorem Ledger.closed_jobTasks (h : Ledger p s) (hclosed : s.stage = .closed) :
    List.Forall₂ (ReportOf s.events) (s.report p).jobs (p.jobs.zipIdx.map fun x => (.job x.2, x.1)) := by
  refine List.forall₂_iff_get.mpr ⟨by simp [h.closed_length hclosed], fun i hi hi' => ?_⟩
  have hlt : i < p.jobs.length := h.closed_length hclosed ▸ hi
  obtain ⟨ending, launched, finished, hendings, hreport⟩ := h.closed_report hclosed (List.getElem?_eq_getElem hlt)
  obtain ⟨_, hget⟩ := List.getElem?_eq_some_iff.mp hreport
  exact ⟨ending, launched, finished, by simpa using hendings, by simpa using hget⟩

theorem Ledger.closed_successes (h : Ledger p s) (hclosed : s.stage = .closed)
    (hresults : ∀ slot ∈ slots p, endings slot s.events = [results slot]) :
    (s.report p).successes = successes p results := by
  have hcount := congrArg (List.countP id) (h.closed_succeeded hclosed)
  rw [List.countP_map, List.countP_map] at hcount
  refine hcount.trans (List.countP_congr fun i hi => ?_)
  simp [hresults (.job i) (List.mem_append_right _ (List.mem_map_of_mem hi))]

theorem Tidings.closed_all (h : Tidings p s joined) (hledger : Ledger p s) (hclosed : s.stage = .closed)
    (hresults : ∀ slot ∈ slots p, endings slot s.events = [results slot]) :
    (.dispatching p.jobClass p.jobs.length :: (s.notices ++
      [.tally (s.report p).jobClass (s.report p).successes (s.report p).failures])).Perm (phaseNotices p results) := by
  have hfailures : (s.report p).failures = failures p results := by
    rw [hledger.closed_failures hclosed]
    exact List.countP_congr fun slot hslot => by simp [hresults slot hslot]
  rw [hledger.closed_successes hclosed hresults, hfailures]
  exact ((h.closed hledger hclosed hresults).append_right _).cons _

end Phase

/-! ### a whole run -/

namespace Run

variable {phases : List Phase} {r : Run}

/-- What is told when a phase begins. -/
def opened (x : Phase × State) : Notice := .dispatching x.1.jobClass x.1.jobs.length

/-- What is told when a phase is over. -/
def tallied (x : Phase × State) : Notice :=
  .tally (x.2.report x.1).jobClass (x.2.report x.1).successes (x.2.report x.1).failures

/-- What a run has told is what was told of the phases that are over, and that the current one has begun. -/
theorem notices_eq (h : Reaches (.initial phases) r) :
    r.notices = (r.past.flatMap fun x => opened x :: (x.2.notices ++ [tallied x])) ++ r.current.toList.map opened := by
  refine h.invariant (I := fun r => r.notices =
    (r.past.flatMap fun x => opened x :: (x.2.notices ++ [tallied x])) ++ r.current.toList.map opened) rfl ?_
  intro u v m hu hm
  cases hm with
  | «open» hcurrent hfuture => simp [hu, hcurrent, opened]
  | inPhase hcurrent hstep => simp [hu, hcurrent, opened]
  | close hcurrent hstage => simp [hu, hcurrent, opened, tallied]

theorem notices_of_isOver (h : Reaches (.initial phases) r) (hover : r.isOver = true) :
    r.notices = r.past.zipIdx.flatMap fun x => opened x.1 :: (x.1.2.notices ++ [tallied x.1]) := by
  obtain ⟨hcurrent, -⟩ : r.current = none ∧ r.future = [] := by simpa [isOver] using hover
  rw [notices_eq h, hcurrent, Option.toList_none, List.map_nil, List.append_nil]
  conv_lhs => rw [← List.zipIdx_map_fst 0 r.past, List.flatMap_map]

end Run

/-- **Each thing is told once, in whatever order the threads come to end.**  When a run is over in which the executions
ended in given ways, it has told, for each phase, how many jobs it has and how many succeeded and failed; for a leader
step, that its command runs and, if there is a port, that it is waited for; and of each execution that did not return a
success, what kept it from that.  A succeeded leader's command is in neither number of the tally, and a failed one is
among the failures. -/
theorem told_once (phases : List Phase) (results : Nat × Slot → Ending) (r : Run)
    (h : Run.Reaches (.initial phases) r) (hover : r.isOver = true)
    (hresults : ∀ x ∈ executions phases, r.endings x = [results x]) :
    r.notices.Perm (phases.zipIdx.flatMap fun x => phaseNotices x.1 fun slot => results (x.2, slot)) ∧
    ∀ x ∈ phases.zipIdx,
      successes x.1 (fun slot => results (x.2, slot)) + failures x.1 (fun slot => results (x.2, slot)) =
        x.1.jobs.length + if x.1.leader.isSome && !(results (x.2, .leader)).isSuccess then 1 else 0 := by
  refine ⟨?_, fun x _ => successes_add_failures x.1 fun slot => results (x.2, slot)⟩
  have hordered := Run.InOrder.of_reaches h
  obtain ⟨hbegun, hphases⟩ := hordered.finished hover
  have hzip : phases.zipIdx = r.past.zipIdx.map fun x => (x.1.1, x.2) := by
    rw [← hphases, List.zipIdx_map]
    rfl
  rw [Run.notices_of_isOver h hover, hzip, List.flatMap_map]
  refine .flatMap_left _ fun x hx => ?_
  have hget := List.mem_zipIdx_iff_getElem?.mp hx
  have hpast : x.1 ∈ r.past := List.mem_of_getElem? hget
  obtain ⟨now, hreached⟩ := hordered.reached x.1 (hbegun ▸ hpast)
  obtain ⟨joined, htidings⟩ := Tidings.of_reaches hreached
  refine htidings.closed_all (.of_reaches hreached) (hordered.past_closed _ hpast) fun slot hslot => ?_
  have hexecution : (x.2, slot) ∈ executions phases := by
    rw [← hphases, executions_map]
    exact List.mem_flatMap.mpr ⟨x, hx, List.mem_map_of_mem hslot⟩
  rw [← hresults _ hexecution, Run.endings, r.eventsOf_eq (hbegun ▸ hget)]

def sampleResults : Nat × Slot → Ending
  | (_, .leader) => .answered (.error (.system .notFound))
  | (_, .job 0) => .died
  | (_, .job _) => .answered (.ok .succeeded)

/-- Of the sample phases are told, in some order, a leader's command that could not be executed, two threads that died,
and two tallies. -/
theorem told_once_sample :
    ∃ r, Run.Reaches (.initial samplePhases) r ∧ r.isOver = true ∧
      (∀ x ∈ executions samplePhases, r.endings x = [sampleResults x]) ∧
      r.notices.Perm
        [.dispatching (.experiment "bench") 3, .runningLeader "a", .waitingForLeader "a.example" 7000,
          .notExecuted "a" (.system .notFound), .jobFailed (.commandFailed "a" none) ⟨"bench.log"⟩, .threadDied "b",
          .tally (.experiment "bench") 2 2, .dispatching .command 1, .threadDied "a", .tally .command 0 1] := by
  have hrun : ∃ r, (sampleExecutor.carryOut 40 (.initial samplePhases) ()).1 = r ∧ r.isOver = true ∧
      r.endings (0, .leader) = [.answered (.error (.system .notFound))] ∧ r.endings (0, .job 0) = [.died] ∧
      r.endings (0, .job 1) = [.answered (.ok .succeeded)] ∧ r.endings (0, .job 2) = [.answered (.ok .succeeded)] ∧
      r.endings (1, .job 0) = [.died] :=
    ⟨_, rfl, rfl, rfl, rfl, rfl, rfl, rfl⟩
  obtain ⟨r, hr, hover, hleader, hfirst, hsecond, hthird, hlast⟩ := hrun
  have hreaches := Executor.reaches_of_carryOut hr
  have hresults : ∀ x ∈ executions samplePhases, r.endings x = [sampleResults x] := by
    have hlist : executions samplePhases =
        [(0, .leader), (0, .job 0), (0, .job 1), (0, .job 2), (1, .job 0)] := rfl
    simp [hlist, hleader, hfirst, hsecond, hthird, hlast, sampleResults]
  exact ⟨r, hreaches, hover, hresults, (told_once samplePhases sampleResults r hreaches hover hresults).1⟩

/-- An executor for which every command succeeds at once. -/
def easyExecutor : Executor Unit :=
  { sampleExecutor with poll := fun _ _ _ _ => some (.answered (.ok .succeeded), ()) }

/-- A succeeded leader's command is not in the tally: of the four executions of the sample phase all succeed, and three
successes and no failure are told. -/
theorem tally_omits_leader :
    ∃ r, Run.Reaches (.initial [samplePhase]) r ∧ r.isOver = true ∧
      (∀ x ∈ executions [samplePhase], r.endings x = [.answered (.ok .succeeded)]) ∧
      (∀ jobClass s f, .tally jobClass s f ∈ r.notices → s + f ≠ samplePhase.jobs.length + 1) ∧
      .tally samplePhase.jobClass 3 0 ∈ r.notices := by
  have hrun : ∃ r, (easyExecutor.carryOut 40 (.initial [samplePhase]) ()).1 = r ∧ r.isOver = true ∧
      r.endings (0, .leader) = [.answered (.ok .succeeded)] ∧ r.endings (0, .job 0) = [.answered (.ok .succeeded)] ∧
      r.endings (0, .job 1) = [.answered (.ok .succeeded)] ∧ r.endings (0, .job 2) = [.answered (.ok .succeeded)] ∧
      r.notices = [.dispatching (.experiment "bench") 3, .runningLeader "a", .waitingForLeader "a.example" 7000,
        .tally (.experiment "bench") 3 0] :=
    ⟨_, rfl, rfl, rfl, rfl, rfl, rfl, rfl⟩
  obtain ⟨r, hr, hover, hleader, hfirst, hsecond, hthird, hnotices⟩ := hrun
  have hreaches := Executor.reaches_of_carryOut hr
  have hlist : executions [samplePhase] = [(0, .leader), (0, .job 0), (0, .job 1), (0, .job 2)] := rfl
  refine ⟨r, hreaches, hover, by simp [hlist, hleader, hfirst, hsecond, hthird], ?_, by simp [hnotices, samplePhase]⟩
  intro jobClass s f htally
  obtain ⟨-, rfl, rfl⟩ : jobClass = .experiment "bench" ∧ s = 3 ∧ f = 0 := by simpa [hnotices] using htally
  decide

end Fleet.FanOut
