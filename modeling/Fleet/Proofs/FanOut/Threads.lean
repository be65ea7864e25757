import Fleet.Proofs.FanOut.Ledger

/-!
# What becomes of a thread

A move leaves the threads as they are or takes one of them a step on: it is started, begins or ends (`Step.threads`).
So a thread that has ended stays as it is (`Step.ended`), and one that executes its job goes on with it until the move
that ends it (`Step.running`).
-/

namespace Fleet.FanOut

open State

variable {p : Phase} {s t : State} {m : Move}

/-- The job at a position is being executed. -/
def State.Running (s : State) (i : Nat) : Prop := ∃ start, s.threads[i]? = some (.running start)

/-- The thread of the job at a position has ended. -/
def State.Ended (s : State) (i : Nat) : Prop := ∃ start stop ending, s.threads[i]? = some (.ended start stop ending)

/-- How a move takes the thread at a position a step on. -/
inductive Thread.Next (now i : Nat) : Thread → Move → Thread → Prop where
  | spawn : Next now i .waiting .spawn .spawned
  | start : Next now i .spawned (.start i) (.running now)
  | finish (start : Nat) (ending : Ending) :
      Next now i (.running start) (.finish i ending) (.ended start now ending)

@[simp] theorem threads_enterBarrier (s : State) (step : LeaderStep) : (s.enterBarrier step).threads = s.threads := by
  unfold State.enterBarrier
  split <;> rfl

@[simp] theorem threads_enterOwnJobs (s : State) (todo : List Nat) :
    (s.enterOwnJobs p todo).threads = s.threads := by
  unfold State.enterOwnJobs
  split
  · exact threads_enterBarrier s _
  · rfl

theorem Step.threads (h : Step p s m t) (hledger : Ledger p s) :
    t.threads = s.threads ∨ ∃ i old new, s.threads[i]? = some old ∧ old.Next s.now i m new ∧
      t.threads = s.threads.set i new := by
  cases h with
  | tick ms => exact .inl rfl
  | beginLeader hstage hleader => exact .inl rfl
  | endLeader answer hstage hleader => exact .inl (threads_enterOwnJobs _ _)
  | @spawnOwn i rest hstage =>
    exact .inr ⟨i, _, _, hledger.next_waiting (by rw [hstage]; rfl), .spawn, threads_enterOwnJobs _ _⟩
  | @spawnOther i rest hstage => exact .inr ⟨i, _, _, hledger.next_waiting (by rw [hstage]; rfl), .spawn, rfl⟩
  | probeRefused hstage hleader hport htime => exact .inl rfl
  | probeAccepted hstage hleader hport htime => exact .inl rfl
  | release hstage hleader htime => exact .inl rfl
  | join hstage hthread hjob hreport => exact .inl rfl
  | @start i job hthread hjob => exact .inr ⟨i, _, _, hthread, .start, rfl⟩
  | @finish i start job ending hthread hjob => exact .inr ⟨i, _, _, hthread, .finish start ending, rfl⟩

theorem Step.thread_stays (h : Step p s m t) (hledger : Ledger p s) {i : Nat} {thread : Thread}
    (hthread : s.threads[i]? = some thread) (hnext : ∀ new, ¬ thread.Next s.now i m new) :
    t.threads[i]? = some thread := by
  rcases h.threads hledger with heq | ⟨j, old, new, hold, hgoes, heq⟩
  · rw [heq, hthread]
  · have hij : j ≠ i := by
      rintro rfl
      obtain rfl := Option.some.inj (hold.symm.trans hthread)
      exact hnext new hgoes
    rw [heq, List.getElem?_set_ne hij, hthread]

theorem Step.ended (h : Step p s m t) (hledger : Ledger p s) {i start stop : Nat} {ending : Ending}
    (hthread : s.threads[i]? = some (.ended start stop ending)) :
    t.threads[i]? = some (.ended start stop ending) :=
  h.thread_stays hledger hthread nofun

theorem Step.running (h : Step p s m t) (hledger : Ledger p s) {i : Nat} (hrunning : s.Running i)
    (hm : ∀ ending, m ≠ .finish i ending) : t.Running i := by
  obtain ⟨start, hthread⟩ := hrunning
  refine ⟨start, h.thread_stays hledger hthread fun new hnext => ?_⟩
  cases hnext with
  | finish start ending => exact hm ending rfl

theorem Step.ended_before (h : Step p s m t) (hledger : Ledger p s) {i : Nat} (hended : t.Ended i)
    (hm : ∀ ending, m ≠ .finish i ending) : s.Ended i := by
  obtain ⟨start, stop, ending, hthread⟩ := hended
  rcases h.threads hledger with heq | ⟨j, old, new, hold, hnext, heq⟩
  · exact ⟨start, stop, ending, by rw [← heq, hthread]⟩
  · by_cases hij : j = i
    · subst hij
      rw [heq, List.getElem?_set_self (List.getElem?_eq_some_iff.mp hold).1, Option.some.injEq] at hthread
      cases hnext with
      | spawn => cases hthread
      | start => cases hthread
      | finish => exact absurd rfl (hm _)
    · exact ⟨start, stop, ending, by rw [← hthread, heq, List.getElem?_set_ne hij]⟩

end Fleet.FanOut
