import Fleet.Proofs.FanOut.Ledger

/-!
# The leader barrier

In a phase with a leader step no job begins before the leader's command has ended, however it ended.  The jobs of the
leader's host are started before the barrier, and all others begin only when the barrier has let them pass: after
the leader's port has accepted a connection, if it has a port, and the delay since then.

`Barred` says this of the history so far, event by event, and of the stage the dispatcher is at.  What an event
needs is read off the ledger: the started threads are an initial piece of the order of the jobs, so before the
barrier they are those of the leader's host (`Ledger.mem_ownJobs`), and at the barrier all of those
(`Ledger.own_spawned`).
-/

namespace Fleet.FanOut

open State

variable {p : Phase} {s t : State} {step : LeaderStep}

/-! ### what the history warrants -/

def LeaderEnded (events : List Event) (time : Nat) : Prop :=
  ∃ ending finish, .ended .leader ending finish ∈ events ∧ finish ≤ time

/-- The barrier has let everyone pass by a time: the leader's command has ended, after that its port has accepted a
connection, if it has one, and the delay has passed since. -/
def Passed (step : LeaderStep) (events : List Event) (time : Nat) : Prop :=
  ∃ before ending finish after, events = before ++ Event.ended .leader ending finish :: after ∧
    match step.barrier.port with
    | none => finish + step.barrier.delay.toNat ≤ time
    | some port => ∃ accepted, .probed step.job.host.hostname port true accepted ∈ after ∧
        accepted + step.barrier.delay.toNat ≤ time

/-- The port of a host is the one that everyone waits for. -/
def Asked (step : LeaderStep) (hostname : String) (port : UInt16) : Prop :=
  hostname = step.job.host.hostname ∧ step.barrier.port = some port

def Warranted (p : Phase) (step : LeaderStep) (before : List Event) : Event → Prop
  | .began (.job i) _ time => LeaderEnded before time ∧ (i ∈ ownJobs p ∨ Passed step before time)
  | .probed hostname port _ _ => Asked step hostname port ∧ ∀ i ∈ ownJobs p, ∃ time, .spawned i time ∈ before
  | .rested _ => ∀ i ∈ ownJobs p, ∃ time, .spawned i time ∈ before
  | _ => True

/-- Every event comes after what it needs. -/
def Orderly (p : Phase) (step : LeaderStep) (events : List Event) : Prop :=
  ∀ before e after, events = before ++ e :: after → Warranted p step before e

theorem Passed.append {events : List Event} {time : Nat} (h : Passed step events time)
    (more : List Event) : Passed step (events ++ more) time := by
  obtain ⟨before, ending, finish, after, rfl, hport⟩ := h
  refine ⟨before, ending, finish, after ++ more, by simp, ?_⟩
  revert hport
  cases step.barrier.port with
  | none => exact id
  | some port =>
    rintro ⟨accepted, hmem, hdelay⟩
    exact ⟨accepted, List.mem_append_left _ hmem, hdelay⟩

theorem Passed.later {events : List Event} {time later : Nat} (h : Passed step events time)
    (hle : time ≤ later) : Passed step events later := by
  obtain ⟨before, ending, finish, after, heq, hport⟩ := h
  refine ⟨before, ending, finish, after, heq, ?_⟩
  revert hport
  cases step.barrier.port with
  | none => exact fun hdelay => Nat.le_trans hdelay hle
  | some port => exact fun ⟨accepted, hmem, hdelay⟩ => ⟨accepted, hmem, Nat.le_trans hdelay hle⟩

theorem Orderly.append {events : List Event} (h : Orderly p step events) {e : Event}
    (he : Warranted p step events e) : Orderly p step (events ++ [e]) := by
  intro before x after heq
  rcases List.eq_nil_or_concat after with rfl | ⟨after, y, rfl⟩
  · obtain ⟨rfl, hx⟩ := List.append_inj' heq rfl
    obtain rfl := List.singleton_injective hx
    exact he
  · rw [List.concat_eq_append, ← List.cons_append, ← List.append_assoc] at heq
    exact h before x after (List.append_inj' heq rfl).1

/-! ### what the ledger says at each stage -/

namespace Ledger

theorem mem_ownJobs (h : Ledger p s) {l : List Nat} (hqueue : s.stage.unspawned p = l ++ otherJobs p) {i : Nat}
    (hi : i ∈ s.handles) : i ∈ ownJobs p := by
  have horder := h.queue
  rw [hqueue, ← List.append_assoc, List.append_cancel_right_eq] at horder
  exact horder ▸ List.mem_append_left l hi

theorem own_started (h : Ledger p s) (hqueue : s.stage.unspawned p = otherJobs p) {i : Nat} (hi : i ∈ ownJobs p) :
    s.threads[i]?.getD .waiting ≠ .waiting := by
  have horder := h.queue
  rw [hqueue, List.append_cancel_right_eq] at horder
  exact (h.started i).mp (horder ▸ hi)

theorem own_spawned (h : Ledger p s) (hqueue : s.stage.unspawned p = otherJobs p) {i : Nat} (hi : i ∈ ownJobs p) :
    ∃ time, .spawned i time ∈ s.events := by
  have hthread := h.own_started hqueue hi
  refine spawned_mem_of_mark ?_
  rw [h.jobs i]
  generalize s.threads[i]?.getD .waiting = thread at hthread
  cases thread with
  | waiting => exact absurd rfl hthread
  | _ => simp [Thread.marks]

theorem leader_ended (h : Ledger p s) (hleader : p.leader = some step) (hleading : s.stage.leading? = none) :
    LeaderEnded s.events s.now := by
  have hled := h.leader
  simp only [LeaderLedger, hleader, hleading] at hled
  obtain ⟨start, stop, answer, hmarks, -⟩ := hled
  have hmem : .ended .leader (.answered answer) stop ∈ s.events := ended_mem_of_mark (hmarks ▸ by simp)
  exact ⟨_, stop, hmem, h.timed _ hmem⟩

theorem leading?_of_started (h : Ledger p s) {i : Nat} (hi : i ∈ s.handles) : s.stage.leading? = none := by
  have hnil : s.stage.unspawned p = ownJobs p ++ otherJobs p → s.handles = [] := fun hq => by
    have horder := h.queue
    rwa [hq, List.append_left_eq_self] at horder
  cases hstage : s.stage with
  | opening => exact absurd hi (by rw [hnil (by rw [hstage]; rfl)]; simp)
  | leading start => exact absurd hi (by rw [hnil (by rw [hstage]; rfl)]; simp)
  | _ => rfl

end Ledger

/-! ### the invariant -/

/-- What the stage says about the barrier: while the delay runs, that it will have let everyone pass at the end of the
delay, and afterwards that it has. -/
def Stage.Past (step : LeaderStep) (events : List Event) (now : Nat) : Stage → Prop
  | .resting since => ∀ time, since + step.barrier.delay.toNat ≤ time → Passed step events time
  | .otherJobs _ | .joining _ | .closed => Passed step events now
  | _ => True

/-- The history so far is in order, and the stage is where the history says. -/
structure Barred (p : Phase) (step : LeaderStep) (s : State) : Prop where
  ledger : Ledger p s
  past : s.stage.Past step s.events s.now
  orderly : Orderly p step s.events

theorem past_joinAll {events : List Event} {now : Nat} (h : Passed step events now) (l : List Nat) :
    (Stage.joinAll l).Past step events now := by
  cases l <;> exact h

theorem past_others {events : List Event} {now : Nat} (h : Passed step events now)
    (handles todo : List Nat) : (Stage.others handles todo).Past step events now := by
  cases todo with
  | nil => exact past_joinAll h handles
  | cons => exact h

theorem Stage.Past.grow {events : List Event} {now later : Nat} {stage : Stage}
    (h : stage.Past step events now) (more : List Event) (hle : now ≤ later) :
    stage.Past step (events ++ more) later := by
  cases stage with
  | resting since => exact fun time htime => (h time htime).append more
  | otherJobs todo => exact (Passed.append h more).later hle
  | joining todo => exact (Passed.append h more).later hle
  | closed => exact (Passed.append h more).later hle
  | _ => exact trivial

namespace Barred

theorem rest (h : Barred p step s) (hqueue : s.stage.unspawned p = otherJobs p)
    (hjoin : s.stage.unjoined s.handles = s.handles) (hleading : s.stage.leading? = none)
    (hpast : ∀ time, s.now + step.barrier.delay.toNat ≤ time → Passed step s.events time) :
    Barred p step s.rest where
  ledger := h.ledger.rest hqueue hjoin hleading
  past time htime := (hpast time htime).append _
  orderly := h.orderly.append fun _ => h.ledger.own_spawned hqueue

theorem enterBarrier (h : Barred p step (s.goTo (.ownJobs []))) (hleader : p.leader = some step) :
    Barred p step (s.enterBarrier step) := by
  have hledger := h.ledger.enterBarrier step
  cases hport : step.barrier.port with
  | some port =>
    simp only [State.enterBarrier, hport] at hledger ⊢
    exact ⟨hledger, trivial, h.orderly⟩
  | none =>
    simp only [State.enterBarrier, hport]
    refine h.rest rfl rfl rfl fun time htime => ?_
    obtain ⟨ending, finish, hmem, hfinish⟩ := h.ledger.leader_ended hleader rfl
    obtain ⟨before, after, heq⟩ := List.append_of_mem hmem
    refine ⟨before, ending, finish, after, heq, ?_⟩
    rw [hport]
    exact Nat.le_trans (Nat.add_le_add_right hfinish _) htime

theorem enterOwnJobs {todo : List Nat} (h : Barred p step (s.goTo (.ownJobs todo))) (hleader : p.leader = some step) :
    Barred p step (s.enterOwnJobs p todo) := by
  cases todo with
  | nil =>
    simp only [State.enterOwnJobs, hleader]
    exact h.enterBarrier hleader
  | cons => exact h

theorem warranted_began (h : Barred p step s) (hleader : p.leader = some step) {i : Nat} (job : Job)
    (hthread : s.threads[i]? = some .spawned) : Warranted p step s.events (.began (.job i) job s.now) := by
  have hi : i ∈ s.handles := (h.ledger.started i).mpr (by simp [hthread])
  have hleading := h.ledger.leading?_of_started hi
  refine ⟨h.ledger.leader_ended hleader hleading, ?_⟩
  have hpast := h.past
  cases hstage : s.stage with
  | opening => simp [hstage, Stage.leading?] at hleading
  | leading start => simp [hstage, Stage.leading?] at hleading
  | ownJobs todo => exact .inl (h.ledger.mem_ownJobs (by rw [hstage]; rfl) hi)
  | probing time => exact .inl (h.ledger.mem_ownJobs (l := []) (by rw [hstage]; rfl) hi)
  | resting since => exact .inl (h.ledger.mem_ownJobs (l := []) (by rw [hstage]; rfl) hi)
  | otherJobs todo => exact .inr (by rwa [hstage] at hpast)
  | joining todo => exact .inr (by rwa [hstage] at hpast)
  | closed => exact .inr (by rwa [hstage] at hpast)

theorem accept (h : Barred p step s) (hleader : p.leader = some step) {time : Nat} {port : UInt16}
    (hstage : s.stage = .probing time) (hport : step.barrier.port = some port) :
    Barred p step (s.note (.probed step.job.host.hostname port true s.now)).rest := by
  have hqueue : s.stage.unspawned p = otherJobs p := by rw [hstage]; rfl
  have hnoted : Barred p step (s.note (.probed step.job.host.hostname port true s.now)) := by
    refine ⟨h.ledger.note (fun _ => rfl) (Nat.le_refl _), ?_, h.orderly.append ⟨⟨rfl, hport⟩, fun _ => ?_⟩⟩
    · rw [State.note, hstage]
      exact trivial
    · exact h.ledger.own_spawned hqueue
  refine hnoted.rest hqueue (by rw [State.note, hstage]; rfl) (by rw [State.note, hstage]; rfl) fun later hlater => ?_
  obtain ⟨ending, finish, hmem, hfinish⟩ := h.ledger.leader_ended hleader (by rw [hstage]; rfl)
  obtain ⟨before, after, heq⟩ := List.append_of_mem hmem
  refine ⟨before, ending, finish, after ++ [Event.probed step.job.host.hostname port true s.now],
    by simp [State.note, heq], ?_⟩
  rw [hport]
  exact ⟨s.now, by simp, hlater⟩

theorem move (h : Barred p step s) (hleader : p.leader = some step) {m : Move} (hm : Step p s m t) :
    Barred p step t := by
  have hledger := h.ledger.move hm
  have hpast := h.past
  cases hm with
  | tick ms => exact ⟨hledger, by simpa using hpast.grow [] (Nat.le_add_right ..), h.orderly⟩
  | beginLeader hstage _ => exact ⟨hledger, trivial, h.orderly.append trivial⟩
  | endLeader answer hstage hsome =>
    obtain rfl := Option.some.inj (hleader.symm.trans hsome)
    exact enterOwnJobs ⟨h.ledger.endLeader answer hstage hleader _, trivial, h.orderly.append trivial⟩ hleader
  | spawnOwn hstage =>
    refine enterOwnJobs ⟨?_, trivial, h.orderly.append trivial⟩ hleader
    exact h.ledger.spawnThread (by rw [hstage]; rfl) rfl rfl (by rw [hstage]; rfl)
  | spawnOther hstage =>
    rw [hstage] at hpast
    exact ⟨hledger, past_others (Passed.append hpast _) _ _, h.orderly.append trivial⟩
  | probeRefused hstage hsome hport htime =>
    obtain rfl := Option.some.inj (hleader.symm.trans hsome)
    refine ⟨hledger, trivial, h.orderly.append ⟨⟨rfl, hport⟩, fun _ => ?_⟩⟩
    exact h.ledger.own_spawned (by rw [hstage]; rfl)
  | probeAccepted hstage hsome hport htime =>
    obtain rfl := Option.some.inj (hleader.symm.trans hsome)
    exact h.accept hleader hstage hport
  | release hstage hsome htime =>
    obtain rfl := Option.some.inj (hleader.symm.trans hsome)
    rw [hstage] at hpast
    exact ⟨hledger, past_others (hpast _ htime) _ _, h.orderly⟩
  | join hstage hthread hjob hreport =>
    rw [hstage] at hpast
    exact ⟨hledger, past_joinAll hpast _, h.orderly⟩
  | start hthread hjob =>
    exact ⟨hledger, hpast.grow _ (Nat.le_refl _), h.orderly.append (h.warranted_began hleader _ hthread)⟩
  | finish ending hthread hjob =>
    exact ⟨hledger, hpast.grow _ (Nat.le_refl _), h.orderly.append trivial⟩

theorem initial (hleader : p.leader = some step) (now : Nat) : Barred p step (.initial p now) := by
  refine ⟨.initial p now, ?_, ?_⟩
  · simp [State.initial, hleader, State.blank, Stage.Past]
  · intro before e after heq
    simp [State.initial, hleader, State.blank] at heq

theorem of_reaches (hleader : p.leader = some step) {now : Nat} (h : Reaches p (.initial p now) s) :
    Barred p step s :=
  h.invariant (initial hleader now) fun hu hm => hu.move hleader hm

end Barred

/-! ### the barrier -/

theorem Ledger.own_not_waiting (h : Ledger p s) (hqueue : s.stage.unspawned p = otherJobs p) {i : Nat}
    (hi : i ∈ ownJobs p) :
    (∃ t, s.apply p (.start i) = some t) ∨ (∃ start, s.threads[i]? = some (.running start)) ∨
      ∃ start stop ending, s.threads[i]? = some (.ended start stop ending) := by
  have hthread := h.own_started hqueue hi
  obtain ⟨job, hjob, -⟩ := FanOut.mem_ownJobs.mp hi
  cases hget : s.threads[i]? with
  | none => simp [hget] at hthread
  | some thread =>
    cases thread with
    | waiting => simp [hget] at hthread
    | spawned => exact .inl ⟨_, apply_of_step (.start hget hjob)⟩
    | running start => exact .inr (.inl ⟨start, rfl⟩)
    | ended start stop ending => exact .inr (.inr ⟨start, stop, ending, rfl⟩)

/-- **The leader barrier**, at every moment of a phase with a leader step, whatever the executions come to: no job has
begun before the leader's command ended; no port but the leader's has been tried; the jobs of the leader's host have
all been started before the first try of the port and before the delay begins, and none of them waits while the
dispatcher is at the barrier; and every other job has begun only after the barrier let it pass. -/
theorem leader_barrier (p : Phase) (step : LeaderStep) (hleader : p.leader = some step) (now : Nat) (s : State)
    (h : Reaches p (.initial p now) s) :
    (∀ before i job time after, s.events = before ++ Event.began (.job i) job time :: after →
      p.jobs[i]? = some job ∧ LeaderEnded before time) ∧
    (∀ hostname port accepted time, Event.probed hostname port accepted time ∈ s.events → Asked step hostname port) ∧
    (∀ before e after, s.events = before ++ e :: after →
      (∃ hostname port accepted time, e = Event.probed hostname port accepted time) ∨
        (∃ time, e = Event.rested time) →
      ∀ i job, p.jobs[i]? = some job → job.host.id = step.job.host.id → ∃ time, .spawned i time ∈ before) ∧
    ((∃ time, s.stage = .probing time) ∨ (∃ since, s.stage = .resting since) →
      ∀ i job, p.jobs[i]? = some job → job.host.id = step.job.host.id →
        (∃ t, s.apply p (.start i) = some t) ∨ (∃ start, s.threads[i]? = some (.running start)) ∨
          ∃ start stop ending, s.threads[i]? = some (.ended start stop ending)) ∧
    (∀ before i job time after, s.events = before ++ Event.began (.job i) job time :: after →
      job.host.id ≠ step.job.host.id → Passed step before time) := by
  have hbarred := Barred.of_reaches hleader h
  have hown : ∀ {i job}, p.jobs[i]? = some job → job.host.id = step.job.host.id → i ∈ ownJobs p :=
    fun hjob hid => FanOut.mem_ownJobs.mpr ⟨_, hjob, (isOwn_iff hleader _).mpr hid⟩
  have hbegun : ∀ {before i job time after}, s.events = before ++ Event.began (.job i) job time :: after →
      p.jobs[i]? = some job := fun heq =>
    mem_tasks_job.mp (hbarred.ledger.begun _ _ _ (heq ▸ List.mem_append_right _ List.mem_cons_self))
  refine ⟨?_, ?_, ?_, ?_, ?_⟩
  · intro before i job time after heq
    exact ⟨hbegun heq, (hbarred.orderly before _ after heq).1⟩
  · intro hostname port accepted time hmem
    obtain ⟨before, after, heq⟩ := List.append_of_mem hmem
    exact (hbarred.orderly before _ after heq).1
  · rintro before e after heq (⟨hostname, port, accepted, time, rfl⟩ | ⟨time, rfl⟩) i job hjob hid
    · exact (hbarred.orderly before _ after heq).2 i (hown hjob hid)
    · exact hbarred.orderly before _ after heq i (hown hjob hid)
  · rintro (⟨time, hstage⟩ | ⟨since, hstage⟩) i job hjob hid
    · exact hbarred.ledger.own_not_waiting (by rw [hstage]; rfl) (hown hjob hid)
    · exact hbarred.ledger.own_not_waiting (by rw [hstage]; rfl) (hown hjob hid)
  · intro before i job time after heq hid
    refine (hbarred.orderly before _ after heq).2.resolve_left fun hi => ?_
    obtain ⟨job', hjob', hisOwn⟩ := FanOut.mem_ownJobs.mp hi
    obtain rfl := Option.some.inj ((hbegun heq).symm.trans hjob')
    exact hid ((isOwn_iff hleader _).mp hisOwn)

/-- The sample phase is over, and the job of the other host began 208 milliseconds after the phase did: the port
accepted the second connection, 203 milliseconds after it. -/
theorem leader_barrier_sample :
    samplePhase.leader = some sampleStep ∧
    ∃ s, Reaches samplePhase (.initial samplePhase 0) s ∧ s.stage = .closed ∧
      ∃ before after, s.events = before ++ Event.began (.job 0) (sampleJob "b") 208 :: after ∧
        Passed sampleStep before 208 := by
  have hreplay : ∃ s, replay samplePhase (.initial samplePhase 0) sampleMoves = some s ∧ s.stage = .closed ∧
      s.events = s.events.take 10 ++ Event.began (.job 0) (sampleJob "b") 208 :: s.events.drop 11 :=
    ⟨_, rfl, rfl, rfl⟩
  obtain ⟨s, hs, hclosed, hevents⟩ := hreplay
  have h := reaches_of_replay hs
  refine ⟨rfl, s, h, hclosed, _, _, hevents, ?_⟩
  exact (leader_barrier samplePhase sampleStep rfl 0 s h).2.2.2.2 _ 0 (sampleJob "b") 208 _ hevents (by decide)

end Fleet.FanOut
