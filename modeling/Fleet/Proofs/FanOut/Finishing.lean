import Fleet.FanOut.Executor
import Fleet.Proofs.FanOut.Concurrency
import Fleet.Proofs.FanOut.History

/-!
# Runs that come to an end

An executor is `Prompt` if every execution has ended by the time it is asked for, and `Admits` a phase from a time on
if it then accepts connections at the port that the phase waits for, if there is one.  It brings such phases to their
end: the moves that are left to a phase are bounded (`State.left`), the next move is one that the phase allows, and it
makes them fewer (`phaseMove_progresses`).  So a run is over after as many moves as its phases have left in all
(`isOver_carryOut`), and no run can get to where it cannot be over any more (`exists_over`).
-/

namespace Fleet.FanOut

open State

variable {p : Phase} {s t : State} {m : Move} {opening : Nat}

/-! ### what is left -/

def Thread.left : Thread → Nat
  | .waiting => 3
  | .spawned => 2
  | .running _ => 1
  | .ended .. => 0

/-- When the delay of the phase is over. -/
def wakeTime (p : Phase) (since : Nat) : Nat :=
  since + (p.leader.map fun step => step.barrier.delay.toNat).getD 0

/-- How many moves of the clock it takes to come to a time. -/
def ticksTo (time now : Nat) : Nat := if now < time then 1 else 0

/-- How often a port that opens at a time is tried in vain, if it is tried from another time on. -/
def retries (opening time : Nat) : Nat := (opening - time + (probeInterval - 1)) / probeInterval

/-- How many moves the dispatcher has left, those by which it starts threads not counted, if the port of the phase opens
at a time. -/
def Stage.left (opening : Nat) (p : Phase) (now : Nat) : Stage → Nat
  | .opening => p.jobs.length + 7 + 2 * retries opening 0
  | .leading _ => p.jobs.length + 6 + 2 * retries opening 0
  | .ownJobs _ => p.jobs.length + 5 + 2 * retries opening 0
  | .probing time => p.jobs.length + 3 + ticksTo time now + 2 * retries opening time
  | .resting since => p.jobs.length + 1 + ticksTo (wakeTime p since) now
  | .otherJobs _ => p.jobs.length
  | .joining todo => todo.length
  | .closed => 0

/-- How many moves all threads have left. -/
def threadsLeft (threads : List Thread) : Nat := threads.foldr (fun thread n => thread.left + n) 0

def State.left (opening : Nat) (p : Phase) (s : State) : Nat := s.stage.left opening p s.now + threadsLeft s.threads

theorem retries_le (opening time : Nat) : retries opening time ≤ retries opening 0 := by
  unfold retries probeInterval
  omega

theorem retries_succ {time now : Nat} (htime : time ≤ now) (hnow : now < opening) :
    retries opening (now + probeInterval) + 1 ≤ retries opening time := by
  unfold retries probeInterval
  omega

theorem threadsLeft_set {threads : List Thread} {i : Nat} {old new : Thread} (hold : threads[i]? = some old)
    (hnew : old.left = new.left + 1) : threadsLeft (threads.set i new) + 1 = threadsLeft threads := by
  induction threads generalizing i with
  | nil => cases hold
  | cons thread rest ih =>
    cases i with
    | zero =>
      obtain rfl : thread = old := Option.some.inj hold
      simp only [threadsLeft, List.set_cons_zero, List.foldr_cons]
      omega
    | succ i =>
      have hrest := ih (by simpa using hold)
      simp only [threadsLeft, List.set_cons_succ, List.foldr_cons] at hrest ⊢
      omega

theorem ticksTo_of_lt {time now : Nat} (h : now < time) : ticksTo time now = 1 := if_pos h

theorem ticksTo_of_le {time now : Nat} (h : time ≤ now) : ticksTo time now = 0 := if_neg (Nat.not_lt.mpr h)

theorem ticksTo_le (time now : Nat) : ticksTo time now ≤ 1 := by
  unfold ticksTo
  split <;> omega

theorem left_eq {stage : Stage} (h : s.stage = stage) :
    s.left opening p = stage.left opening p s.now + threadsLeft s.threads := by
  rw [State.left, h]

theorem left_joinAll (todo : List Nat) (now : Nat) : (Stage.joinAll todo).left opening p now = todo.length := by
  cases todo <;> rfl

theorem left_others {handles : List Nat} (h : handles.length ≤ p.jobs.length) (todo : List Nat) (now : Nat) :
    (Stage.others handles todo).left opening p now ≤ p.jobs.length := by
  cases todo with
  | nil =>
    rw [Stage.others, left_joinAll]
    exact h
  | cons i rest => exact Nat.le_refl _

theorem Ledger.length_handles (h : Ledger p s) : s.handles.length ≤ p.jobs.length := by
  have hqueue := congrArg List.length h.queue
  have horder := (order_perm p).length_eq
  rw [List.length_append] at hqueue
  rw [List.length_range] at horder
  omega

theorem Ledger.threadsLeft_spawnThread (h : Ledger p s) {i : Nat} {rest : List Nat}
    (hqueue : s.stage.unspawned p = i :: rest) : threadsLeft (s.spawnThread i).threads < threadsLeft s.threads :=
  Nat.lt_of_succ_le (Nat.le_of_eq (threadsLeft_set (h.next_waiting hqueue) rfl))

/-- With jobs of the leader's host to start, or at the barrier, there is less left than before the first of them. -/
theorem left_enterOwnJobs (s : State) (todo : List Nat) :
    (s.enterOwnJobs p todo).left opening p ≤ p.jobs.length + 5 + 2 * retries opening 0 + threadsLeft s.threads := by
  have hstage : (s.enterOwnJobs p todo).stage.left opening p (s.enterOwnJobs p todo).now ≤
      p.jobs.length + 5 + 2 * retries opening 0 := by
    unfold State.enterOwnJobs
    split
    · unfold State.enterBarrier
      split
      · have hticks := ticksTo_le s.now s.now
        have hretries := retries_le opening s.now
        change p.jobs.length + 3 + ticksTo s.now s.now + 2 * retries opening s.now ≤ _
        omega
      · have hticks := ticksTo_le (wakeTime p s.now) s.now
        change p.jobs.length + 1 + ticksTo (wakeTime p s.now) s.now ≤ _
        omega
    · exact Nat.le_refl _
  rw [State.left, threads_enterOwnJobs]
  exact Nat.add_le_add_right hstage _

/-! ### what moves keep -/

/-- Where a phase comes to: it joins only threads that it has started. -/
structure Sound (p : Phase) (s : State) : Prop where
  alive : Alive p s
  unjoined : ∀ i ∈ s.stage.unjoined s.handles, i ∈ s.handles

namespace Sound

theorem initial (p : Phase) (now : Nat) : Sound p (.initial p now) where
  alive := .initial p now
  unjoined i hi := by
    unfold State.initial at hi ⊢
    split at hi
    · exact hi
    · exact absurd hi (by simp [enterOtherJobs, State.goTo, blank])

theorem enterOwnJobs {todo : List Nat} (halive : Alive p (s.enterOwnJobs p todo)) :
    Sound p (s.enterOwnJobs p todo) := by
  refine ⟨halive, fun i => ?_⟩
  unfold State.enterOwnJobs
  split
  · unfold State.enterBarrier
    split <;> exact id
  · exact id

theorem move (h : Sound p s) (hm : Step p s m t) : Sound p t := by
  have halive := h.alive.move hm
  cases hm with
  | tick ms => exact ⟨halive, h.unjoined⟩
  | beginLeader hstage hleader => exact ⟨halive, fun i hi => hi⟩
  | endLeader answer hstage hleader => exact enterOwnJobs halive
  | spawnOwn hstage => exact enterOwnJobs halive
  | @spawnOther i rest hstage =>
    refine ⟨halive, fun j hj => ?_⟩
    have hunjoined : j ∈ (Stage.others (s.handles ++ [i]) rest).unjoined (s.handles ++ [i]) := hj
    rwa [unjoined_others] at hunjoined
  | probeRefused hstage hleader hport htime => exact ⟨halive, fun i hi => hi⟩
  | probeAccepted hstage hleader hport htime => exact ⟨halive, fun i hi => hi⟩
  | release hstage hleader htime =>
    refine ⟨halive, fun j hj => ?_⟩
    simpa [State.goTo] using hj
  | @join i rest job thread report told hstage hthread hjob hreport =>
    refine ⟨halive, fun j hj => h.unjoined j ?_⟩
    rw [hstage]
    exact List.mem_cons_of_mem i (by simpa using hj)
  | start hthread hjob => exact ⟨halive, h.unjoined⟩
  | finish ending hthread hjob => exact ⟨halive, h.unjoined⟩

end Sound

/-! ### prompt executors -/

namespace Executor

variable {World : Type} {x : Executor World} {w w' : World}

/-- Every execution has ended when it is asked for, and nothing in the world goes on by itself. -/
structure Prompt (x : Executor World) : Prop where
  poll : ∀ now slot job w, (x.poll now slot job w).isSome = true
  wake : ∀ now w, x.wake now w = none

/-- From a time on the executor accepts connections at the port that the phase waits for, if there is one. -/
def Admits (x : Executor World) (opening : Nat) (p : Phase) : Prop :=
  ∀ step port, p.leader = some step → step.barrier.port = some port →
    ∀ now w, opening ≤ now → x.accepts now step.job.host.hostname port w = true

theorem mem_threads {job : Job} {thread : Thread} {i : Nat} :
    ((job, thread), i) ∈ (p.jobs.zip s.threads).zipIdx ↔ p.jobs[i]? = some job ∧ s.threads[i]? = some thread := by
  rw [List.mem_zipIdx_iff_getElem?, List.getElem?_zip_eq_some]

theorem threadMove?_step (h : x.threadMove? p s w = some (m, w')) :
    ∃ t, Step p s m t ∧ t.left opening p < s.left opening p := by
  unfold threadMove? at h
  split at h
  · rename_i i job hstart
    obtain ⟨rfl, -⟩ := Prod.mk.inj (Option.some.inj h)
    obtain ⟨⟨⟨job', thread⟩, i'⟩, hmem, hfound⟩ := List.exists_of_findSome?_eq_some hstart
    cases thread with
    | spawned =>
      obtain ⟨rfl, rfl⟩ := Prod.mk.inj (Option.some.inj hfound)
      obtain ⟨hjob, hthread⟩ := mem_threads.mp hmem
      refine ⟨_, .start hthread hjob, Nat.add_lt_add_left ?_ _⟩
      exact Nat.lt_of_succ_le (Nat.le_of_eq (@threadsLeft_set s.threads i' _ (.running s.now) hthread rfl))
    | _ => cases hfound
  · obtain ⟨⟨⟨job, thread⟩, i⟩, hmem, hfound⟩ := List.exists_of_findSome?_eq_some h
    cases thread with
    | running start =>
      obtain ⟨⟨ending, w''⟩, -, heq⟩ := Option.map_eq_some_iff.mp hfound
      obtain ⟨rfl, -⟩ := Prod.mk.inj heq
      obtain ⟨hjob, hthread⟩ := mem_threads.mp hmem
      refine ⟨_, .finish ending hthread hjob, Nat.add_lt_add_left ?_ _⟩
      exact Nat.lt_of_succ_le (Nat.le_of_eq (@threadsLeft_set s.threads i _ (.ended start s.now ending) hthread rfl))
    | _ => cases hfound

theorem threadMove?_ne_none (hx : x.Prompt) (hledger : Ledger p s) {i : Nat} (hi : i ∈ s.handles)
    (hended : ¬ s.Ended i) (w : World) : x.threadMove? p s w ≠ none := by
  have hwaiting := (hledger.started i).mp hi
  obtain ⟨thread, hthread⟩ : ∃ thread, s.threads[i]? = some thread := by
    cases hthread : s.threads[i]? with
    | none => exact absurd (by rw [hthread]; rfl) hwaiting
    | some thread => exact ⟨thread, rfl⟩
  obtain ⟨job, hjob⟩ := hledger.exists_job hthread
  have hmem := mem_threads.mpr ⟨hjob, hthread⟩
  -- the searches for a thread to begin and for one to end would have come to this one
  intro hnone
  unfold threadMove? at hnone
  split at hnone
  · cases hnone
  · rename_i hstart
    cases thread with
    | waiting => exact hwaiting (by rw [hthread]; rfl)
    | spawned => exact absurd (List.findSome?_eq_none_iff.mp hstart _ hmem) (by simp)
    | running start =>
      have hfinish := List.findSome?_eq_none_iff.mp hnone _ hmem
      have hpoll := hx.poll s.now (.job i) job w
      simp only [Option.map_eq_none_iff] at hfinish
      rw [hfinish] at hpoll
      cases hpoll
    | ended start stop ending => exact hended ⟨start, stop, ending, hthread⟩

/-- What happens next is a move that the phase allows, and after it fewer are left. -/
def Progresses (x : Executor World) (opening : Nat) (p : Phase) (s : State) (w : World) : Prop :=
  ∃ t, Step p s (x.phaseMove p s w).1 t ∧ t.left opening p < s.left opening p

theorem progresses_of_dispatcher (hmove : x.dispatcherMove? p s w = some (m, w')) (hstep : Step p s m t)
    (hleft : t.left opening p < s.left opening p) : x.Progresses opening p s w := by
  refine ⟨t, ?_, hleft⟩
  rwa [phaseMove, hmove]

theorem progresses_of_thread (hnone : x.dispatcherMove? p s w = none) (hthread : x.threadMove? p s w ≠ none) :
    x.Progresses opening p s w := by
  obtain ⟨⟨m, w'⟩, hmove⟩ := Option.ne_none_iff_exists'.mp hthread
  obtain ⟨t, hstep, hleft⟩ := threadMove?_step hmove
  refine ⟨t, ?_, hleft⟩
  rwa [phaseMove, hnone, hmove]

theorem progresses_of_wake (hx : x.Prompt) {time : Nat} (hnone : x.dispatcherMove? p s w = none)
    (hwake : dispatcherWake? p s = some time) (hearly : s.now < time)
    (hfewer : s.stage.left opening p time < s.stage.left opening p s.now) : x.Progresses opening p s w := by
  cases hthread : x.threadMove? p s w with
  | some move => exact progresses_of_thread hnone (by rw [hthread]; exact Option.some_ne_none _)
  | none =>
    have hclock : (x.phaseMove p s w).1 = .tick (time - s.now) := by
      rw [phaseMove, hnone, hthread]
      simp [clockMove, hwake, hx.wake, hearly]
    -- the world does nothing by itself, so the dispatcher's time is the next
    have htime : s.now + (time - s.now) = time := Nat.add_sub_cancel' (Nat.le_of_lt hearly)
    rw [Progresses, hclock]
    refine ⟨_, .tick _, Nat.add_lt_add_right ?_ _⟩
    rwa [htime]

/-! ### stage by stage -/

theorem progresses_probing (hx : x.Prompt) (hadmits : x.Admits opening p) (h : Sound p s) {time : Nat}
    (hstage : s.stage = .probing time) (w : World) : x.Progresses opening p s w := by
  have hproper := h.alive.proper
  rw [hstage] at hproper
  obtain ⟨step, port, hstep, hport⟩ := hproper
  by_cases hearly : s.now < time
  · have hnone : x.dispatcherMove? p s w = none := by
      rw [dispatcherMove?, hstage, hstep]
      exact if_pos hearly
    have hwake : dispatcherWake? p s = some time := by rw [dispatcherWake?, hstage]
    refine progresses_of_wake hx hnone hwake hearly ?_
    rw [hstage, Stage.left, Stage.left, ticksTo_of_lt hearly, ticksTo_of_le (Nat.le_refl _)]
    exact Nat.add_lt_add_right (Nat.lt_succ_self _) _
  · have htime : time ≤ s.now := Nat.le_of_not_lt hearly
    let hostname := step.job.host.hostname
    have hmove : x.dispatcherMove? p s w = some (.probe hostname port (x.accepts s.now hostname port w), w) := by
      rw [dispatcherMove?, hstage, hstep]
      simp [hearly, hport, hostname]
    cases haccepts : x.accepts s.now hostname port w with
    | true =>
      rw [haccepts] at hmove
      refine progresses_of_dispatcher hmove (.probeAccepted hstage hstep hport htime) ?_
      have hafter : ((s.note (.probed hostname port true s.now)).rest).left opening p =
          p.jobs.length + 1 + ticksTo (wakeTime p s.now) s.now + threadsLeft s.threads := rfl
      have hticks := ticksTo_le (wakeTime p s.now) s.now
      rw [left_eq hstage, hafter, Stage.left]
      omega
    | false =>
      rw [haccepts] at hmove
      -- the port has not opened yet, so there is one try less to come
      have hnow : s.now < opening := by
        by_contra hopen
        have hadmitted := hadmits step port hstep hport s.now w (Nat.le_of_not_lt hopen)
        exact Bool.false_ne_true (haccepts.symm.trans hadmitted)
      refine progresses_of_dispatcher hmove (.probeRefused hstage hstep hport htime) ?_
      have hafter :
          ((s.note (.probed hostname port false s.now)).goTo (.probing (s.now + probeInterval))).left opening p =
          p.jobs.length + 3 + ticksTo (s.now + probeInterval) s.now + 2 * retries opening (s.now + probeInterval) +
            threadsLeft s.threads := rfl
      have hticks := ticksTo_le (s.now + probeInterval) s.now
      have hretries := retries_succ htime hnow
      rw [left_eq hstage, hafter, Stage.left]
      omega

theorem progresses_resting (hx : x.Prompt) (h : Sound p s) {since : Nat} (hstage : s.stage = .resting since)
    (w : World) : x.Progresses opening p s w := by
  have hproper := h.alive.proper
  rw [hstage] at hproper
  obtain ⟨step, hstep⟩ := Option.isSome_iff_exists.mp hproper
  have htime : wakeTime p since = since + step.barrier.delay.toNat := by rw [wakeTime, hstep]; rfl
  by_cases hearly : s.now < wakeTime p since
  · have hnone : x.dispatcherMove? p s w = none := by
      rw [dispatcherMove?, hstage, hstep]
      exact if_pos (htime ▸ hearly)
    have hwake : dispatcherWake? p s = some (wakeTime p since) := by
      rw [dispatcherWake?, hstage, hstep, htime]
    refine progresses_of_wake hx hnone hwake hearly ?_
    rw [hstage, Stage.left, Stage.left, ticksTo_of_lt hearly, ticksTo_of_le (Nat.le_refl _)]
    exact Nat.lt_succ_self _
  · have hmove : x.dispatcherMove? p s w = some (.release, w) := by
      rw [dispatcherMove?, hstage, hstep]
      exact if_neg (htime ▸ hearly)
    refine progresses_of_dispatcher hmove (.release hstage hstep (Nat.le_of_not_lt (htime ▸ hearly))) ?_
    have hafter := @left_others p opening _ h.alive.ledger.length_handles (otherJobs p) s.now
    have hbefore : p.jobs.length + 1 ≤ (Stage.resting since).left opening p s.now := Nat.le_add_right _ _
    rw [left_eq hstage]
    exact Nat.add_lt_add_right (Nat.lt_of_le_of_lt hafter hbefore) _

theorem progresses_joining (hx : x.Prompt) (h : Sound p s) {i : Nat} {rest : List Nat}
    (hstage : s.stage = .joining (i :: rest)) (w : World) : x.Progresses opening p s w := by
  have hi : i ∈ s.handles := h.unjoined i (by rw [hstage]; exact List.mem_cons_self)
  by_cases hended : s.Ended i
  · obtain ⟨start, stop, ending, hthread⟩ := hended
    obtain ⟨job, hjob⟩ := h.alive.ledger.exists_job hthread
    obtain ⟨⟨report, told⟩, hreport⟩ : ∃ report, joinedReport s.now job (.ended start stop ending) = some report := by
      cases ending <;> exact ⟨_, rfl⟩
    have hmove : x.dispatcherMove? p s w = some (.join, w) := by
      rw [dispatcherMove?, hstage]
      simp only [hthread]
    have hafter : (Stage.joinAll rest).left opening p s.now <
        (Stage.joining (i :: rest)).left opening p s.now := by
      rw [left_joinAll]
      exact Nat.lt_succ_self _
    refine progresses_of_dispatcher hmove (.join hstage hthread hjob hreport) ?_
    rw [left_eq hstage]
    exact Nat.add_lt_add_right hafter _
  · -- the dispatcher waits for the thread, which goes on, or some other does
    refine progresses_of_thread ?_ (threadMove?_ne_none hx h.alive.ledger hi hended w)
    rw [dispatcherMove?, hstage]
    simp only
    split
    · rename_i hthread
      exact absurd ⟨_, _, _, hthread⟩ hended
    · rfl

/-- **The next move of a phase that is not over.** -/
theorem phaseMove_progresses (hx : x.Prompt) (hadmits : x.Admits opening p) (h : Sound p s) (hopen : s.stage ≠ .closed)
    (w : World) : x.Progresses opening p s w := by
  have hproper := h.alive.proper
  cases hstage : s.stage with
  | closed => exact absurd hstage hopen
  | opening =>
    rw [hstage] at hproper
    obtain ⟨step, hstep⟩ := Option.isSome_iff_exists.mp hproper
    have hmove : x.dispatcherMove? p s w = some (.beginLeader, x.begin s.now .leader step.job w) := by
      rw [dispatcherMove?, hstage, hstep]
    refine progresses_of_dispatcher hmove (.beginLeader hstage hstep) ?_
    rw [left_eq hstage]
    exact Nat.add_lt_add_right (Nat.add_lt_add_right (Nat.lt_succ_self _) _) _
  | leading start =>
    rw [hstage] at hproper
    obtain ⟨step, hstep⟩ := Option.isSome_iff_exists.mp hproper
    obtain ⟨⟨ending, w'⟩, hpoll⟩ := Option.isSome_iff_exists.mp (hx.poll s.now .leader step.job w)
    have hmove : x.dispatcherMove? p s w = some (.endLeader (leaderAnswer ending), w') := by
      rw [dispatcherMove?, hstage, hstep]
      simp only [hpoll, Option.map_some]
    refine progresses_of_dispatcher hmove (.endLeader _ hstage hstep) (Nat.lt_of_le_of_lt (left_enterOwnJobs _ _) ?_)
    rw [left_eq hstage]
    exact Nat.add_lt_add_right (Nat.add_lt_add_right (Nat.lt_succ_self _) _) _
  | ownJobs todo =>
    rw [hstage] at hproper
    obtain ⟨i, rest, rfl⟩ := List.exists_cons_of_ne_nil hproper.2
    have hmove : x.dispatcherMove? p s w = some (.spawn, w) := by rw [dispatcherMove?, hstage]
    have hfewer := h.alive.ledger.threadsLeft_spawnThread (by rw [hstage]; rfl)
    refine progresses_of_dispatcher hmove (.spawnOwn hstage) (Nat.lt_of_le_of_lt (left_enterOwnJobs _ _) ?_)
    rw [left_eq hstage]
    exact Nat.add_lt_add_left hfewer _
  | otherJobs todo =>
    rw [hstage] at hproper
    obtain ⟨i, rest, rfl⟩ := List.exists_cons_of_ne_nil hproper
    have hmove : x.dispatcherMove? p s w = some (.spawn, w) := by rw [dispatcherMove?, hstage]
    have hfewer := h.alive.ledger.threadsLeft_spawnThread (by rw [hstage]; rfl)
    have hstep := Step.spawnOther (p := p) hstage
    have hhandles : (s.handles ++ [i]).length ≤ p.jobs.length := (h.alive.move hstep).ledger.length_handles
    refine progresses_of_dispatcher hmove hstep ?_
    rw [left_eq hstage]
    exact Nat.add_lt_add_of_le_of_lt (left_others hhandles rest s.now) hfewer
  | probing time => exact progresses_probing hx hadmits h hstage w
  | resting since => exact progresses_resting hx h hstage w
  | joining todo =>
    rw [hstage] at hproper
    obtain ⟨i, rest, rfl⟩ := List.exists_cons_of_ne_nil hproper
    exact progresses_joining hx h hstage w

end Executor

/-! ### runs -/

theorem threadsLeft_waiting (jobs : List Job) : threadsLeft (jobs.map fun _ => .waiting) = 3 * jobs.length := by
  induction jobs with
  | nil => rfl
  | cons job rest ih =>
    simp only [threadsLeft, List.map_cons, List.foldr_cons, List.length_cons, Thread.left] at ih ⊢
    omega

theorem left_initial (opening : Nat) (p : Phase) (now : Nat) :
    (State.initial p now).left opening p ≤ 4 * p.jobs.length + 7 + 2 * retries opening 0 := by
  have hthreads := threadsLeft_waiting p.jobs
  unfold State.initial
  split
  · change p.jobs.length + 7 + 2 * retries opening 0 + threadsLeft (p.jobs.map fun _ => .waiting) ≤ _
    omega
  · have hstage := @left_others p opening [] (Nat.zero_le _) (otherJobs p) now
    change (Stage.others [] (otherJobs p)).left opening p now + threadsLeft (p.jobs.map fun _ => .waiting) ≤ _
    rw [hthreads]
    omega

/-- How many moves a run has left: to go through each phase, to begin it and to close it. -/
def Run.left (opening : Phase → Nat) (r : Run) : Nat :=
  (r.current.map fun y => y.2.left (opening y.1) y.1 + 1).getD 0 +
    r.future.foldr (fun p n => 4 * p.jobs.length + 9 + 2 * retries (opening p) 0 + n) 0

namespace Executor

variable {World : Type} {x : Executor World} {opening : Phase → Nat} {r t : Run} {m : RunMove}

/-- What is left of a run is admitted, each phase from its own time on. -/
structure Ready (x : Executor World) (opening : Phase → Nat) (r : Run) : Prop where
  current : ∀ p s, r.current = some (p, s) → Sound p s ∧ x.Admits (opening p) p
  future : ∀ p ∈ r.future, x.Admits (opening p) p

namespace Ready

theorem initial {phases : List Phase} (h : ∀ p ∈ phases, x.Admits (opening p) p) :
    x.Ready opening (.initial phases) where
  current p s hsome := by
    have hnone : (Run.initial phases).current = none := rfl
    simp [hnone] at hsome
  future := h

theorem step (h : x.Ready opening r) (hm : RunStep r m t) : x.Ready opening t := by
  cases hm with
  | @«open» p rest hcurrent hfuture =>
    have hadmits : ∀ q ∈ p :: rest, x.Admits (opening q) q := hfuture ▸ h.future
    refine ⟨fun q s hq => ?_, fun q hq => hadmits q (List.mem_cons_of_mem p hq)⟩
    obtain ⟨rfl, rfl⟩ := Prod.mk.inj (Option.some.inj hq)
    exact ⟨.initial p r.now, hadmits p List.mem_cons_self⟩
  | inPhase hcurrent hstep =>
    obtain ⟨hsound, hadmits⟩ := h.current _ _ hcurrent
    refine ⟨fun q s hq => ?_, h.future⟩
    obtain ⟨rfl, rfl⟩ := Prod.mk.inj (Option.some.inj hq)
    exact ⟨hsound.move hstep, hadmits⟩
  | close hcurrent hclosed => exact ⟨fun q s hq => absurd hq (by simp), h.future⟩

end Ready

/-- **The next move of a run that is not over.** -/
theorem runMove_apply (hx : x.Prompt) (h : x.Ready opening r) (hopen : r.isOver = false) (w : World) :
    ∃ t, r.apply (x.runMove r w).1 = some t ∧ t.left opening < r.left opening := by
  cases hcurrent : r.current with
  | none =>
    cases hfuture : r.future with
    | nil => simp [Run.isOver, hcurrent, hfuture] at hopen
    | cons p rest =>
      have hmove : (x.runMove r w).1 = .open := by rw [runMove, hcurrent]
      rw [hmove, Run.apply, hcurrent, hfuture]
      refine ⟨_, rfl, ?_⟩
      have hinitial := left_initial (opening p) p r.now
      simp only [Run.left, hcurrent, hfuture, Option.map_some, Option.map_none, Option.getD_some, Option.getD_none,
        List.foldr_cons]
      omega
  | some y =>
    obtain ⟨p, s⟩ := y
    obtain ⟨hsound, hadmits⟩ := h.current p s hcurrent
    by_cases hclosed : s.stage = .closed
    · have hmove : (x.runMove r w).1 = .close := by
        rw [runMove, hcurrent]
        simp only [hclosed]
      rw [hmove, Run.apply, hcurrent]
      simp only [hclosed]
      refine ⟨_, rfl, ?_⟩
      simp only [Run.left, hcurrent, Option.map_some, Option.map_none, Option.getD_some, Option.getD_none]
      omega
    · obtain ⟨t, hstep, hleft⟩ := phaseMove_progresses hx hadmits hsound hclosed w
      have hmove : (x.runMove r w).1 = .inPhase (x.phaseMove p s w).1 := by
        rw [runMove, hcurrent]
        cases hstage : s.stage with
        | closed => exact absurd hstage hclosed
        | _ => simp only [hstage]
      rw [hmove, Run.apply, hcurrent]
      simp only [apply_of_step hstep, Option.map_some]
      refine ⟨_, rfl, ?_⟩
      simp only [Run.left, hcurrent, Option.map_some, Option.getD_some]
      omega

theorem isOver_carryOut (hx : x.Prompt) (h : x.Ready opening r) {fuel : Nat} (hfuel : r.left opening ≤ fuel)
    (w : World) : (x.carryOut fuel r w).1.isOver = true := by
  induction fuel generalizing r w with
  | zero =>
    by_contra hopen
    obtain ⟨t, -, hleft⟩ := runMove_apply hx h (Bool.eq_false_iff.mpr hopen) w
    omega
  | succ fuel ih =>
    unfold carryOut
    split
    · assumption
    · rename_i hopen
      obtain ⟨t, ht, hleft⟩ := runMove_apply hx h (Bool.eq_false_iff.mpr hopen) w
      simp only [ht]
      exact ih (h.step (runStep_of_apply ht)) (by omega) _

/-- An executor whose executions succeed at once, and which accepts all connections. -/
def obliging : Executor Unit where
  begin := fun _ _ _ _ => ()
  poll := fun _ _ _ _ => some (.answered (.ok .succeeded), ())
  accepts := fun _ _ _ _ => true
  wake := fun _ _ => none

theorem prompt_obliging : obliging.Prompt := ⟨fun _ _ _ _ => rfl, fun _ _ => rfl⟩

theorem admits_obliging (p : Phase) : obliging.Admits 0 p := fun _ _ _ _ _ _ _ => rfl

end Executor

/-- **No run gets stuck.**  Wherever moves have led, further moves lead to the end of all phases. -/
theorem Run.exists_over {phases : List Phase} {r : Run} (h : Run.Reaches (.initial phases) r) :
    ∃ t, Run.Reaches r t ∧ t.isOver = true := by
  have hready : Executor.obliging.Ready (fun _ => 0) r :=
    h.invariant (.initial fun p _ => Executor.admits_obliging p) fun hu hm => hu.step hm
  exact ⟨_, Executor.obliging.reaches_carryOut (r.left fun _ => 0) r r () (.refl r),
    Executor.isOver_carryOut Executor.prompt_obliging hready (Nat.le_refl _) ()⟩

end Fleet.FanOut
