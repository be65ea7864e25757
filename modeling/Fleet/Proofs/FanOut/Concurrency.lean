import Mathlib.Data.List.Count
import Fleet.Proofs.FanOut.Threads

/-!
# Jobs do not wait for one another

No job of a phase has to end before another can begin.  Once the barrier has let the dispatcher pass, all that a job
still needs is that the dispatcher starts the threads in front of it and that its own thread begins; and from every
moment on, the first one included, moves in which no thread ends lead to one at which every job that has not ended is
being executed (`units_concurrent`).

The second part is by a measure: `remaining` counts what is left to do until all threads execute their jobs, and as long
as anything is left, some moves without an end of a thread make it less (`progress`).
-/

namespace Fleet.FanOut

open State

variable {p : Phase} {s t u : State} {m : Move} {l : List Move} {answer : Answer}

/-! ### lists of moves -/

theorem replay_append {more : List Move} (h : replay p s l = some t) (hmore : replay p t more = some u) :
    replay p s (l ++ more) = some u := by
  rw [replay, List.foldlM_append]
  exact Option.bind_eq_some_iff.mpr ⟨t, h, hmore⟩

theorem replay_singleton (h : Step p s m t) : replay p s [m] = some t := by
  rw [replay, List.foldlM_cons]
  exact Option.bind_eq_some_iff.mpr ⟨t, apply_of_step h, rfl⟩

theorem replay_invariant {I : State → Prop} (h : replay p s l = some t) (hs : I s)
    (hstep : ∀ {u v m}, m ∈ l → I u → Step p u m v → I v) : I t := by
  induction l generalizing s with
  | nil =>
    obtain rfl : s = t := Option.some.inj h
    exact hs
  | cons m l ih =>
    rw [replay, List.foldlM_cons] at h
    obtain ⟨u, hu, h⟩ := Option.bind_eq_some_iff.mp h
    refine ih h (hstep List.mem_cons_self hs (step_of_apply hu)) ?_
    exact fun hm => hstep (List.mem_cons_of_mem _ hm)

/-- A move in which no thread ends.  The leader's command may end, with the given answer. -/
def Move.Quiet (answer : Answer) : Move → Prop
  | .finish _ _ => False
  | .endLeader other => other = answer
  | _ => True

theorem Move.Quiet.ne_finish (h : m.Quiet answer) (i : Nat) (ending : Ending) : m ≠ .finish i ending := by
  rintro rfl
  exact h

/-! ### the stages that a phase comes to -/

/-- A stage that a phase comes to: before the barrier there is a leader, and what is to be done is not nothing. -/
def Stage.Proper (p : Phase) : Stage → Prop
  | .opening | .leading _ | .resting _ => p.leader.isSome
  | .probing _ => ∃ step port, p.leader = some step ∧ step.barrier.port = some port
  | .ownJobs todo => p.leader.isSome ∧ todo ≠ []
  | .otherJobs todo | .joining todo => todo ≠ []
  | .closed => True

theorem proper_joinAll (todo : List Nat) : (Stage.joinAll todo).Proper p := by
  cases todo with
  | nil => trivial
  | cons => exact List.cons_ne_nil _ _

theorem proper_others (handles todo : List Nat) : (Stage.others handles todo).Proper p := by
  cases todo with
  | nil => exact proper_joinAll handles
  | cons => exact List.cons_ne_nil _ _

theorem proper_enterOwnJobs (hleader : p.leader.isSome) (s : State) (todo : List Nat) :
    (s.enterOwnJobs p todo).stage.Proper p := by
  obtain ⟨step, hstep⟩ := Option.isSome_iff_exists.mp hleader
  cases todo with
  | nil =>
    rw [State.enterOwnJobs.eq_def, hstep]
    simp only [State.enterBarrier]
    split
    · rename_i port hport
      exact ⟨step, port, hstep, hport⟩
    · exact hleader
  | cons => exact ⟨hleader, List.cons_ne_nil _ _⟩

theorem Step.proper (h : Step p s m t) (hs : s.stage.Proper p) : t.stage.Proper p := by
  cases h with
  | tick ms => exact hs
  | beginLeader hstage hleader => exact Option.isSome_of_mem hleader
  | endLeader answer hstage hleader => exact proper_enterOwnJobs (Option.isSome_of_mem hleader) _ _
  | spawnOwn hstage =>
    rw [hstage] at hs
    exact proper_enterOwnJobs hs.1 _ _
  | spawnOther hstage => exact proper_others _ _
  | probeRefused hstage hleader hport htime => exact ⟨_, _, hleader, hport⟩
  | probeAccepted hstage hleader hport htime => exact Option.isSome_of_mem hleader
  | release hstage hleader htime => exact proper_others _ _
  | join hstage hthread hjob hreport => exact proper_joinAll _
  | start hthread hjob => exact hs
  | finish ending hthread hjob => exact hs

theorem proper_initial (p : Phase) (now : Nat) : (State.initial p now).stage.Proper p := by
  unfold State.initial
  split
  · rename_i step hleader
    exact Option.isSome_of_mem hleader
  · exact proper_others _ _

/-- Where a phase comes to: the ledger holds, and the stage is a proper one. -/
structure Alive (p : Phase) (s : State) : Prop where
  ledger : Ledger p s
  proper : s.stage.Proper p

namespace Alive

theorem move (h : Alive p s) (hm : Step p s m t) : Alive p t := ⟨h.ledger.move hm, hm.proper h.proper⟩

theorem initial (p : Phase) (now : Nat) : Alive p (.initial p now) := ⟨.initial p now, proper_initial p now⟩

theorem of_reaches {now : Nat} (h : Reaches p (.initial p now) s) : Alive p s :=
  h.invariant (initial p now) fun hu hm => hu.move hm

theorem of_replay (h : Alive p s) (hl : replay p s l = some t) : Alive p t :=
  replay_invariant hl h fun _ hu hm => hu.move hm

end Alive

/-! ### what is left to do -/

/-- How many stages lie before the dispatcher until it is past the barrier. -/
def Stage.rank : Stage → Nat
  | .opening => 5
  | .leading _ => 4
  | .ownJobs _ => 3
  | .probing _ => 2
  | .resting _ => 1
  | .otherJobs _ | .joining _ | .closed => 0

/-- Whether a thread has been started and does not execute its job yet. -/
def Thread.isSpawned : Thread → Bool
  | .spawned => true
  | _ => false

/-- What is left to do until every thread executes its job: stages of the dispatcher, threads to be started and then
to begin. -/
def State.remaining (p : Phase) (s : State) : Nat :=
  s.stage.rank + 2 * (s.stage.unspawned p).length + s.threads.countP Thread.isSpawned

theorem remaining_eq {stage : Stage} (h : s.stage = stage) :
    s.remaining p = stage.rank + 2 * (stage.unspawned p).length + s.threads.countP Thread.isSpawned := by
  rw [State.remaining, h]

@[simp] theorem rank_joinAll (todo : List Nat) : (Stage.joinAll todo).rank = 0 := by
  cases todo <;> rfl

@[simp] theorem rank_others (handles todo : List Nat) : (Stage.others handles todo).rank = 0 := by
  cases todo with
  | nil => exact rank_joinAll handles
  | cons => rfl

theorem remaining_others (s : State) (handles todo : List Nat) :
    (s.goTo (.others handles todo)).remaining p = 2 * todo.length + s.threads.countP Thread.isSpawned := by
  have h : (s.goTo (.others handles todo)).remaining p = (Stage.others handles todo).rank +
      2 * ((Stage.others handles todo).unspawned p).length + s.threads.countP Thread.isSpawned := remaining_eq rfl
  rw [h, rank_others, unspawned_others, Nat.zero_add]

theorem remaining_enterOwnJobs (s : State) (todo : List Nat) :
    (s.enterOwnJobs p todo).remaining p ≤
      3 + 2 * (todo.length + (otherJobs p).length) + s.threads.countP Thread.isSpawned := by
  unfold State.remaining
  rw [threads_enterOwnJobs]
  have hstage : (s.enterOwnJobs p todo).stage.rank ≤ 3 ∧
      ((s.enterOwnJobs p todo).stage.unspawned p).length = todo.length + (otherJobs p).length := by
    unfold State.enterOwnJobs
    split
    · unfold State.enterBarrier
      split
      · exact ⟨Nat.le_succ 2, by simp [State.goTo, Stage.unspawned]⟩
      · exact ⟨Nat.le_add_left 1 2, by simp [State.rest, State.goTo, Stage.unspawned]⟩
    · exact ⟨Nat.le_refl 3, by simp [State.goTo, Stage.unspawned]⟩
  omega

theorem countP_spawned {i : Nat} (h : s.threads[i]? = some .waiting) :
    (s.threads.set i .spawned).countP Thread.isSpawned = s.threads.countP Thread.isSpawned + 1 := by
  obtain ⟨hi, hget⟩ := List.getElem?_eq_some_iff.mp h
  rw [List.countP_set hi, hget]
  rfl

theorem countP_running {i now : Nat} (h : s.threads[i]? = some .spawned) :
    (s.threads.set i (.running now)).countP Thread.isSpawned < s.threads.countP Thread.isSpawned := by
  obtain ⟨hi, hget⟩ := List.getElem?_eq_some_iff.mp h
  have hpos : 0 < s.threads.countP Thread.isSpawned :=
    List.countP_pos_iff.mpr ⟨s.threads[i], List.getElem_mem hi, by rw [hget]; rfl⟩
  rw [List.countP_set hi, hget]
  simp only [Thread.isSpawned, if_true, Bool.false_eq_true, if_false]
  omega

/-- Moves in which no thread ends do some of what is left. -/
def Advances (p : Phase) (answer : Answer) (s : State) : Prop :=
  ∃ l t, replay p s l = some t ∧ (∀ m ∈ l, m.Quiet answer) ∧ t.remaining p < s.remaining p

theorem Step.advances (h : Step p s m t) (hm : m.Quiet answer) (hlt : t.remaining p < s.remaining p) :
    Advances p answer s :=
  ⟨[m], t, replay_singleton h, List.forall_mem_singleton.mpr hm, hlt⟩

theorem Step.advances_later (ms : Nat) (h : Step p { s with now := s.now + ms } m t) (hm : m.Quiet answer)
    (hlt : t.remaining p < s.remaining p) : Advances p answer s := by
  refine ⟨[.tick ms] ++ [m], t, replay_append (replay_singleton (.tick ms)) (replay_singleton h), ?_, hlt⟩
  intro x hx
  rcases List.mem_pair.mp hx with rfl | rfl
  · exact trivial
  · exact hm

theorem advances_start (h : Ledger p s) (hrank : s.stage.rank = 0) (hqueue : s.stage.unspawned p = [])
    (hleft : 0 < s.remaining p) : Advances p answer s := by
  have hcount : 0 < s.threads.countP Thread.isSpawned := by simpa [State.remaining, hrank, hqueue] using hleft
  obtain ⟨thread, hmem, hspawned⟩ := List.countP_pos_iff.mp hcount
  obtain ⟨i, hi⟩ := List.getElem?_of_mem hmem
  obtain rfl : thread = .spawned := by cases thread <;> first | rfl | cases hspawned
  obtain ⟨job, hjob⟩ := h.exists_job hi
  refine Step.advances (.start hi hjob) trivial ?_
  have hlt : (s.threads.set i (.running s.now)).countP Thread.isSpawned < s.threads.countP Thread.isSpawned :=
    countP_running hi
  simp only [State.remaining]
  omega

/-- As long as anything is left to do, some of it can be done without the end of a thread. -/
theorem progress (h : Alive p s) (hleft : 0 < s.remaining p) (answer : Answer) : Advances p answer s := by
  have hproper := h.proper
  cases hstage : s.stage with
  | opening =>
    rw [hstage] at hproper
    obtain ⟨step, hstep⟩ := Option.isSome_iff_exists.mp hproper
    refine Step.advances (.beginLeader hstage hstep) trivial ?_
    rw [remaining_eq hstage, remaining_eq rfl]
    exact Nat.add_lt_add_right (Nat.add_lt_add_right (Nat.lt_succ_self 4) _) _
  | leading start =>
    rw [hstage] at hproper
    obtain ⟨step, hstep⟩ := Option.isSome_iff_exists.mp hproper
    refine Step.advances (.endLeader answer hstage hstep) rfl (Nat.lt_of_le_of_lt (remaining_enterOwnJobs _ _) ?_)
    have hbefore : s.remaining p = 4 + 2 * (ownJobs p ++ otherJobs p).length + s.threads.countP Thread.isSpawned :=
      remaining_eq hstage
    rw [hbefore, List.length_append]
    exact Nat.add_lt_add_right (Nat.add_lt_add_right (Nat.lt_succ_self 3) _) _
  | ownJobs todo =>
    rw [hstage] at hproper
    obtain ⟨i, rest, rfl⟩ := List.exists_cons_of_ne_nil hproper.2
    refine Step.advances (.spawnOwn hstage) trivial (Nat.lt_of_le_of_lt (remaining_enterOwnJobs _ _) ?_)
    have hbefore : s.remaining p = 3 + 2 * (i :: rest ++ otherJobs p).length + s.threads.countP Thread.isSpawned :=
      remaining_eq hstage
    have hcount : (s.spawnThread i).threads.countP Thread.isSpawned = s.threads.countP Thread.isSpawned + 1 :=
      countP_spawned (h.ledger.next_waiting (by rw [hstage]; rfl))
    rw [hbefore, hcount, List.length_append, List.length_cons]
    omega
  | probing time =>
    rw [hstage] at hproper
    obtain ⟨step, port, hstep, hport⟩ := hproper
    have hready : time ≤ s.now + (time - s.now) := by omega
    refine Step.advances_later _ (.probeAccepted hstage hstep hport hready) trivial ?_
    rw [remaining_eq hstage, remaining_eq rfl]
    exact Nat.add_lt_add_right (Nat.add_lt_add_right (Nat.lt_succ_self 1) _) _
  | resting since =>
    rw [hstage] at hproper
    obtain ⟨step, hstep⟩ := Option.isSome_iff_exists.mp hproper
    have hready : since + step.barrier.delay.toNat ≤ s.now + (since + step.barrier.delay.toNat - s.now) := by omega
    refine Step.advances_later _ (.release hstage hstep hready) trivial ?_
    have hbefore : s.remaining p = 1 + 2 * (otherJobs p).length + s.threads.countP Thread.isSpawned :=
      remaining_eq hstage
    rw [remaining_others, hbefore]
    change 2 * (otherJobs p).length + s.threads.countP Thread.isSpawned < _
    omega
  | otherJobs todo =>
    rw [hstage] at hproper
    obtain ⟨i, rest, rfl⟩ := List.exists_cons_of_ne_nil hproper
    refine Step.advances (.spawnOther hstage) trivial ?_
    have hbefore : s.remaining p = 0 + 2 * (i :: rest).length + s.threads.countP Thread.isSpawned :=
      remaining_eq hstage
    have hcount : (s.spawnThread i).threads.countP Thread.isSpawned = s.threads.countP Thread.isSpawned + 1 :=
      countP_spawned (h.ledger.next_waiting (by rw [hstage]; rfl))
    rw [remaining_others, hbefore, hcount, List.length_cons]
    omega
  | joining todo => exact advances_start h.ledger (by rw [hstage]; rfl) (by rw [hstage]; rfl) hleft
  | closed => exact advances_start h.ledger (by rw [hstage]; rfl) (by rw [hstage]; rfl) hleft

/-! ### everyone at once -/

theorem Ledger.running_or_ended (h : Ledger p s) (hnone : s.remaining p = 0) {i : Nat} (hi : i < p.jobs.length) :
    s.Running i ∨ s.Ended i := by
  have hqueue : s.stage.unspawned p = [] := by
    refine List.eq_nil_of_length_eq_zero ?_
    simp only [State.remaining] at hnone
    omega
  have hcount : s.threads.countP Thread.isSpawned = 0 := by
    simp only [State.remaining] at hnone
    omega
  have hstarted : i ∈ s.handles := by
    have horder := h.queue
    rw [hqueue, List.append_nil] at horder
    rw [horder, mem_order]
    exact hi
  have hwaiting := (h.started i).mp hstarted
  cases hthread : s.threads[i]? with
  | none => simp [hthread] at hwaiting
  | some thread =>
    cases thread with
    | waiting => simp [hthread] at hwaiting
    | spawned => exact absurd rfl (List.countP_eq_zero.mp hcount _ (List.mem_of_getElem? hthread))
    | running start => exact .inl ⟨start, hthread⟩
    | ended start stop ending => exact .inr ⟨start, stop, ending, hthread⟩

/-- From wherever a phase is, moves in which no thread ends take it to where nothing is left to do. -/
theorem exists_replay_all (h : Alive p s) (answer : Answer) :
    ∃ l t, replay p s l = some t ∧ (∀ m ∈ l, m.Quiet answer) ∧ t.remaining p = 0 := by
  induction hn : s.remaining p using Nat.strongRecOn generalizing s with
  | ind n ih =>
    subst hn
    by_cases hleft : s.remaining p = 0
    · exact ⟨[], s, rfl, by simp, hleft⟩
    · obtain ⟨l, t, hl, hquiet, hlt⟩ := progress h (Nat.pos_of_ne_zero hleft) answer
      obtain ⟨more, u, hmore, hquiet', hnone⟩ := ih _ hlt (h.of_replay hl) rfl
      refine ⟨l ++ more, u, replay_append hl hmore, fun m hm => ?_, hnone⟩
      rcases List.mem_append.mp hm with hm | hm
      · exact hquiet m hm
      · exact hquiet' m hm

theorem ended_of_quiet (h : Ledger p s) (hl : replay p s l = some t) (hquiet : ∀ m ∈ l, m.Quiet answer) {i : Nat}
    (hended : t.Ended i) : s.Ended i := by
  have hback : Ledger p t ∧ (t.Ended i → s.Ended i) := by
    refine replay_invariant (I := fun u => Ledger p u ∧ (u.Ended i → s.Ended i)) hl ⟨h, id⟩ ?_
    intro u v m hm hu hstep
    exact ⟨hu.1.move hstep, fun hv => hu.2 (hstep.ended_before hu.1 hv ((hquiet m hm).ne_finish i))⟩
  exact hback.2 hended

theorem running_of_replay (h : Ledger p s) (hl : replay p s l = some t) {i : Nat} (hrunning : s.Running i)
    (hmoves : ∀ m ∈ l, ∀ ending, m ≠ .finish i ending) : t.Running i := by
  have hgoes : Ledger p t ∧ t.Running i := by
    refine replay_invariant (I := fun u => Ledger p u ∧ u.Running i) hl ⟨h, hrunning⟩ ?_
    intro u v m hm hu hstep
    exact ⟨hu.1.move hstep, hstep.running hu.1 hu.2 (hmoves m hm)⟩
  exact hgoes.2

/-- From wherever a phase is, moves in which no thread ends bring all jobs to execution that have not ended. -/
theorem exists_all_running (h : Alive p s) (answer : Answer) :
    ∃ l t, replay p s l = some t ∧ (∀ m ∈ l, m.Quiet answer) ∧
      ∀ i < p.jobs.length, ¬ s.Ended i → t.Running i := by
  obtain ⟨l, t, hl, hquiet, hnone⟩ := exists_replay_all h answer
  refine ⟨l, t, hl, hquiet, fun i hi hended => ?_⟩
  refine ((h.of_replay hl).ledger.running_or_ended hnone hi).resolve_right fun ht => hended ?_
  exact ended_of_quiet h.ledger hl hquiet ht

theorem not_ended_initial (p : Phase) (now i : Nat) : ¬ (State.initial p now).Ended i := by
  rintro ⟨start, stop, ending, hthread⟩
  have hthreads : (State.initial p now).threads = p.jobs.map fun _ => .waiting := by
    unfold State.initial
    split <;> rfl
  rw [hthreads, List.getElem?_map] at hthread
  obtain ⟨job, -, hjob⟩ := Option.map_eq_some_iff.mp hthread
  cases hjob

/-! ### one at a time -/

theorem exists_spawns (hledger : Ledger p s) {todo : List Nat} (hstage : s.stage = .otherJobs todo) {i : Nat}
    (hi : i ∈ todo) : ∃ n t, replay p s (List.replicate n .spawn) = some t ∧ t.threads[i]? = some .spawned := by
  induction todo generalizing s with
  | nil => cases hi
  | cons j rest ih =>
    have hstep := Step.spawnOther (p := p) hstage
    have hnext := hledger.next_waiting (by rw [hstage]; rfl)
    by_cases hij : i = j
    · subst hij
      exact ⟨1, _, replay_singleton hstep, List.getElem?_set_self (List.getElem?_eq_some_iff.mp hnext).1⟩
    · have hrest : i ∈ rest := (List.mem_cons.mp hi).resolve_left hij
      obtain ⟨k, rest, rfl⟩ := List.exists_cons_of_ne_nil (List.ne_nil_of_mem hrest)
      obtain ⟨n, t, hn, ht⟩ := ih (hledger.move hstep) rfl hrest
      exact ⟨n + 1, t, replay_append (replay_singleton hstep) hn, ht⟩

/-- Whether the dispatcher is past the barrier. -/
def Stage.isPast : Stage → Bool
  | .otherJobs _ | .joining _ | .closed => true
  | _ => false

theorem Stage.Proper.isPast {stage : Stage} (h : stage.Proper p) (hleader : p.leader = none) : stage.isPast = true := by
  have hnone : ¬ p.leader.isSome = true := by simp [hleader]
  cases stage with
  | opening => exact absurd h hnone
  | leading start => exact absurd h hnone
  | ownJobs todo => exact absurd h.1 hnone
  | probing time =>
    obtain ⟨step, port, hstep, -⟩ := h
    exact absurd (Option.isSome_of_mem hstep) hnone
  | resting since => exact absurd h hnone
  | otherJobs todo => rfl
  | joining todo => rfl
  | closed => rfl

theorem exists_start (hledger : Ledger p s) (hpast : s.stage.isPast = true) {i : Nat} (hi : i < p.jobs.length)
    (hrunning : ¬ s.Running i) (hended : ¬ s.Ended i) :
    ∃ n t, replay p s (List.replicate n .spawn ++ [.start i]) = some t ∧ t.Running i := by
  have hbegin : ∀ {u : State}, u.threads[i]? = some .spawned → ∃ t, replay p u [.start i] = some t ∧ t.Running i := by
    intro u hu
    have hjob := List.getElem?_eq_getElem hi
    exact ⟨_, replay_singleton (.start hu hjob), u.now, List.getElem?_set_self (List.getElem?_eq_some_iff.mp hu).1⟩
  have hlt : i < s.threads.length := hledger.threads_length ▸ hi
  cases hthread : s.threads[i]? with
  | none => exact absurd hthread (by simp [hlt])
  | some thread =>
    cases thread with
    | waiting =>
      have hqueue : i ∈ s.stage.unspawned p := by
        have hmem : i ∈ s.handles ++ s.stage.unspawned p := by rwa [hledger.queue, mem_order]
        refine (List.mem_append.mp hmem).resolve_left fun hhandle => ?_
        exact (hledger.started i).mp hhandle (by rw [hthread]; rfl)
      have hothers : ∃ todo, s.stage = .otherJobs todo ∧ i ∈ todo := by
        cases hstage : s.stage <;> simp_all [Stage.isPast, Stage.unspawned]
      obtain ⟨todo, hstage, htodo⟩ := hothers
      obtain ⟨n, u, hn, hu⟩ := exists_spawns hledger hstage htodo
      obtain ⟨t, ht, hrun⟩ := hbegin hu
      exact ⟨n, t, replay_append hn ht, hrun⟩
    | spawned =>
      obtain ⟨t, ht, hrun⟩ := hbegin hthread
      exact ⟨0, t, ht, hrun⟩
    | running start => exact absurd ⟨start, hthread⟩ hrunning
    | ended start stop ending => exact absurd ⟨start, stop, ending, hthread⟩ hended

/-- **Jobs do not wait for one another.**  Without a leader, and else once the barrier has been passed, a job that has
not begun is brought to execution by moves of two kinds alone, the dispatcher starting threads and the job's own thread
beginning, and whatever is being executed goes on.  From every state of a phase, whatever the leader's command answers,
moves in which no thread ends lead to one at which every job that had not ended is being executed.  So there is a run of
every phase in which all its jobs are executed at the same time. -/
theorem units_concurrent (p : Phase) (now : Nat) (s : State) (h : Reaches p (.initial p now) s) :
    (p.leader = none ∨ s.stage.isPast = true → ∀ i < p.jobs.length, ¬ s.Running i → ¬ s.Ended i →
      ∃ n t, replay p s (List.replicate n .spawn ++ [.start i]) = some t ∧ t.Running i ∧
        ∀ j, s.Running j → t.Running j) ∧
    (∀ answer, ∃ l t, replay p s l = some t ∧ (∀ m ∈ l, m.Quiet answer) ∧
      ∀ i < p.jobs.length, ¬ s.Ended i → t.Running i) ∧
    ∃ t, Reaches p (.initial p now) t ∧ ∀ i < p.jobs.length, t.Running i := by
  have halive := Alive.of_reaches h
  refine ⟨fun hbarrier i hi hrunning hended => ?_, exists_all_running halive, ?_⟩
  · have hpast : s.stage.isPast = true := hbarrier.elim halive.proper.isPast id
    obtain ⟨n, t, hl, hrun⟩ := exists_start halive.ledger hpast hi hrunning hended
    refine ⟨n, t, hl, hrun, fun j hj => running_of_replay halive.ledger hl hj fun m hm ending heq => ?_⟩
    simp [heq] at hm
  · obtain ⟨l, t, hl, -, hrunning⟩ := exists_all_running (.initial p now) (.ok .succeeded)
    exact ⟨t, reaches_of_replay hl, fun i hi => hrunning i hi (not_ended_initial p now i)⟩

/-- The barrier of the sample phase has been passed, and both jobs of the leader's host are being executed; the third
job comes to be executed together with them. -/
theorem units_concurrent_sample :
    ∃ s, Reaches samplePhase (.initial samplePhase 0) s ∧ s.stage = .otherJobs [0] ∧ s.Running 1 ∧ s.Running 2 ∧
      ∃ n t, replay samplePhase s (List.replicate n .spawn ++ [.start 0]) = some t ∧
        t.Running 0 ∧ t.Running 1 ∧ t.Running 2 := by
  have hreplay : ∃ s, replay samplePhase (.initial samplePhase 0)
        [.beginLeader, .endLeader (.ok .succeeded), .spawn, .spawn, .start 2, .start 1,
          .probe "a.example" 7000 true, .tick 5, .release] = some s ∧
      s.stage = .otherJobs [0] ∧ s.threads = [.waiting, .running 0, .running 0] :=
    ⟨_, rfl, rfl, rfl⟩
  obtain ⟨s, hs, hstage, hthreads⟩ := hreplay
  have h := reaches_of_replay hs
  have hone : s.Running 1 := ⟨0, by rw [hthreads]; rfl⟩
  have htwo : s.Running 2 := ⟨0, by rw [hthreads]; rfl⟩
  refine ⟨s, h, hstage, hone, htwo, ?_⟩
  obtain ⟨n, t, ht, hzero, hrest⟩ := (units_concurrent samplePhase 0 s h).1 (.inr (by rw [hstage]; rfl)) 0 (by decide)
    (by simp [State.Running, hthreads]) (by simp [State.Ended, hthreads])
  exact ⟨n, t, ht, hzero, hrest 1 hone, hrest 2 htwo⟩

end Fleet.FanOut
