import Mathlib.Data.List.Induction
import Fleet.FanOut

/-!
# What a move can do

`Step` lists the moves of a phase: when each is possible, and what the state is after it.  It is exactly what
`State.apply` allows (`step_of_apply`, `apply_of_step`), and every invariant of a phase is derived from it, once for
each move.
-/

namespace Fleet.FanOut

open State

variable {p : Phase} {s t : State} {m : Move}

/-- One move of a phase from a state to the next. -/
inductive Step (p : Phase) (s : State) : Move → State → Prop where
  | tick (ms : Nat) : Step p s (.tick ms) { s with now := s.now + ms }
  | beginLeader {step : LeaderStep} : s.stage = .opening → p.leader = some step →
      Step p s .beginLeader
        { s with
          stage := .leading s.now
          events := s.events ++ [.began .leader step.job s.now]
          notices := s.notices ++ [.runningLeader step.job.host.id] }
  | endLeader {step : LeaderStep} {start : Nat} (answer : Answer) : s.stage = .leading start →
      p.leader = some step →
      Step p s (.endLeader answer)
        (enterOwnJobs p
          { s with
            leader := some (.ofJob step.job (stateOf answer) start s.now)
            events := s.events ++ [.ended .leader (.answered answer) s.now]
            notices := s.notices ++ answerNotices step.job answer }
          (ownJobs p))
  | spawnOwn {i : Nat} {rest : List Nat} : s.stage = .ownJobs (i :: rest) →
      Step p s .spawn ((s.spawnThread i).enterOwnJobs p rest)
  | spawnOther {i : Nat} {rest : List Nat} : s.stage = .otherJobs (i :: rest) →
      Step p s .spawn ((s.spawnThread i).goTo (.others (s.handles ++ [i]) rest))
  | probeRefused {step : LeaderStep} {port : UInt16} {time : Nat} : s.stage = .probing time → p.leader = some step →
      step.barrier.port = some port → time ≤ s.now →
      Step p s (.probe step.job.host.hostname port false)
        ((s.note (.probed step.job.host.hostname port false s.now)).goTo (.probing (s.now + probeInterval)))
  | probeAccepted {step : LeaderStep} {port : UInt16} {time : Nat} : s.stage = .probing time → p.leader = some step →
      step.barrier.port = some port → time ≤ s.now →
      Step p s (.probe step.job.host.hostname port true) (s.note (.probed step.job.host.hostname port true s.now)).rest
  | release {step : LeaderStep} {since : Nat} : s.stage = .resting since → p.leader = some step →
      since + step.barrier.delay.toNat ≤ s.now →
      Step p s .release (s.goTo (.others s.handles (otherJobs p)))
  | join {i : Nat} {rest : List Nat} {job : Job} {thread : Thread} {report : JobReport} {told : List Notice} :
      s.stage = .joining (i :: rest) → s.threads[i]? = some thread → p.jobs[i]? = some job →
      joinedReport s.now job thread = some (report, told) →
      Step p s .join
        { s with
          stage := .joinAll rest
          reports := s.reports.set i (some report)
          notices := s.notices ++ told }
  | start {i : Nat} {job : Job} : s.threads[i]? = some .spawned → p.jobs[i]? = some job →
      Step p s (.start i)
        { s with
          threads := s.threads.set i (.running s.now)
          events := s.events ++ [.began (.job i) job s.now] }
  | finish {i start : Nat} {job : Job} (ending : Ending) : s.threads[i]? = some (.running start) →
      p.jobs[i]? = some job →
      Step p s (.finish i ending)
        { s with
          threads := s.threads.set i (.ended start s.now ending)
          events := s.events ++ [.ended (.job i) ending s.now]
          notices := s.notices ++ ending.notices job }

theorem step_of_apply (h : s.apply p m = some t) : Step p s m t := by
  cases m with
  | tick ms =>
    obtain rfl := Option.some.inj h
    exact .tick ms
  | beginLeader =>
    simp only [apply, State.beginLeader] at h
    split at h
    · rename_i step hstage hleader
      obtain rfl := Option.some.inj h
      exact .beginLeader hstage hleader
    · cases h
  | endLeader answer =>
    simp only [apply, State.endLeader] at h
    split at h
    · rename_i start step hstage hleader
      obtain rfl := Option.some.inj h
      exact .endLeader answer hstage hleader
    · cases h
  | spawn =>
    simp only [apply, State.spawn] at h
    split at h
    · rename_i i rest hstage
      obtain rfl := Option.some.inj h
      exact .spawnOwn hstage
    · rename_i i rest hstage
      obtain rfl := Option.some.inj h
      exact .spawnOther hstage
    · cases h
  | probe hostname port accepted =>
    simp only [apply, State.probe] at h
    split at h
    · rename_i time step hstage hleader
      split at h
      · rename_i hasked
        obtain ⟨htime, rfl, hport⟩ := hasked
        obtain rfl := Option.some.inj h
        cases accepted with
        | false => exact .probeRefused hstage hleader hport htime
        | true => exact .probeAccepted hstage hleader hport htime
      · cases h
    · cases h
  | release =>
    simp only [apply, State.release] at h
    split at h
    · rename_i since step hstage hleader
      split at h
      · cases h
      · rename_i htime
        obtain rfl := Option.some.inj h
        exact .release hstage hleader (Nat.not_lt.mp htime)
    · cases h
  | join =>
    simp only [apply, State.join] at h
    split at h
    · rename_i i rest hstage
      split at h
      · rename_i thread job hthread hjob
        obtain ⟨⟨report, told⟩, hreport, rfl⟩ := Option.map_eq_some_iff.mp h
        exact .join hstage hthread hjob hreport
      · cases h
    · cases h
  | start i =>
    simp only [apply, State.start] at h
    split at h
    · rename_i job hthread hjob
      obtain rfl := Option.some.inj h
      exact .start hthread hjob
    · cases h
  | finish i ending =>
    simp only [apply, State.finish] at h
    split at h
    · rename_i start job hthread hjob
      obtain rfl := Option.some.inj h
      exact .finish ending hthread hjob
    · cases h

theorem apply_of_step (h : Step p s m t) : s.apply p m = some t := by
  cases h with
  | tick ms => rfl
  | beginLeader hstage hleader => rw [apply, State.beginLeader, hstage, hleader]; rfl
  | endLeader answer hstage hleader => rw [apply, State.endLeader, hstage, hleader]; rfl
  | spawnOwn hstage => rw [apply, State.spawn, hstage]
  | spawnOther hstage => rw [apply, State.spawn, hstage]; rfl
  | probeRefused hstage hleader hport htime =>
    rw [apply, State.probe, hstage, hleader]
    exact if_pos ⟨htime, rfl, hport⟩
  | probeAccepted hstage hleader hport htime =>
    rw [apply, State.probe, hstage, hleader]
    exact if_pos ⟨htime, rfl, hport⟩
  | release hstage hleader htime =>
    rw [apply, State.release, hstage, hleader]
    exact if_neg (Nat.not_lt.mpr htime)
  | join hstage hthread hjob hreport =>
    simp only [apply, State.join, hstage, hthread, hjob, hreport, Option.map_some]
    rfl
  | start hthread hjob => rw [apply, State.start, hthread, hjob]; rfl
  | finish ending hthread hjob => rw [apply, State.finish, hthread, hjob]; rfl

theorem State.Reaches.invariant {I : State → Prop} (h : Reaches p s t) (hs : I s)
    (hstep : ∀ {u v m}, I u → Step p u m v → I v) : I t := by
  induction h with
  | refl => exact hs
  | step m _ hm ih => exact hstep ih (step_of_apply hm)

/-! ### lists of moves -/

/-- The state after a list of moves, if each of them is possible. -/
def replay (p : Phase) (s : State) (l : List Move) : Option State := l.foldlM (fun s m => s.apply p m) s

theorem reaches_of_replay {l : List Move} (h : replay p s l = some t) : Reaches p s t := by
  induction l using List.reverseRecOn generalizing t with
  | nil =>
    obtain rfl : s = t := Option.some.inj h
    exact .refl s
  | append_singleton l m ih =>
    simp only [replay, List.foldlM_append, List.foldlM_cons, List.foldlM_nil] at h
    obtain ⟨u, hu, hm⟩ := Option.bind_eq_some_iff.mp h
    obtain ⟨v, hv, heq⟩ := Option.bind_eq_some_iff.mp hm
    obtain rfl : v = t := Option.some.inj heq
    exact .step m (ih hu) hv

def sampleJob (id : String) : Job := ⟨⟨id, id ++ ".example"⟩, .experiment "bench", .host, "run", ⟨"bench.log"⟩, []⟩

/-- A leader step with a port and a delay. -/
def sampleStep : LeaderStep := ⟨sampleJob "a", ⟨5, some 7000⟩⟩

/-- A phase in which the leader's host has two jobs, neither of them the first. -/
def samplePhase : Phase :=
  ⟨.experiment "bench", some sampleStep, [sampleJob "b", sampleJob "a", sampleJob "a"], []⟩

/-- Moves that take the phase to its end: the leader's command cannot be executed, one thread dies and one job
fails. -/
def sampleMoves : List Move :=
  [.beginLeader, .tick 3, .endLeader (.error (.system .notFound)), .spawn, .start 1, .spawn, .probe "a.example" 7000 false,
    .tick 200, .finish 1 .died, .probe "a.example" 7000 true, .tick 5, .release, .spawn, .start 0, .start 2,
    .finish 2 (.answered (.ok .succeeded)), .finish 0 (.answered (.ok (.failed (some 3)))), .join, .join, .join]

end Fleet.FanOut
