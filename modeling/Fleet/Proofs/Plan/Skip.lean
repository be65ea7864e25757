import Fleet.Proofs.Plan.Make

/-!
# Skipping hosts only silences them

Two plans of one request are compared, one with a list of skipped hosts and one without.  Only the experiment's
phase reads the list, and there it decides who has a job and nothing else: positions, peers and the leader come
from the active hosts.
-/

namespace Fleet.Plan

/-- What skipping hosts does to a phase; the ids are those of the active hosts. -/
inductive Silenced (skip ids : List String) : Phase → Phase → Prop where
  /-- a phase that is not the experiment's is as it was -/
  | other {phase : Phase} (h : ∀ name, phase.jobClass ≠ .experiment name) : Silenced skip ids phase phase
  /-- the experiment's phase loses the jobs of the skipped hosts, which it names instead -/
  | experiment {full part : Phase} {name : String} (jobClass : full.jobClass = .experiment name)
      (same_jobClass : part.jobClass = full.jobClass) (same_leader : part.leader = full.leader)
      (jobs : part.jobs = full.jobs.filter (·.host.id ∉ skip))
      (skipped : part.skipped = ids.filter (· ∈ skip)) : Silenced skip ids full part

/-- What skipping hosts does to a plan of a request that has nobody skipped. -/
structure Quieter (limit : Option Nat) (skip : List String) (full part : Plan) : Prop where
  config : part.config = full.config
  testbed : part.testbed = full.testbed
  roster : part.roster = full.roster
  notices : part.notices = full.notices
  phases : List.Forall₂ (Silenced skip ((full.roster.active limit).map (·.id))) full.phases part.phases

variable {c : Config} {r : Request} {logbook : Logbook} {hosts : List Host} {skip ids : List String}

theorem Ordinary.silenced {phases : List Phase} (h : Ordinary phases) :
    List.Forall₂ (Silenced skip ids) phases phases :=
  List.forall₂_same.2 fun phase hphase => .other (h phase hphase)

theorem silenced_experimentPhase (l : Launch) :
    Silenced skip (hosts.map (·.id)) (experimentPhase l logbook hosts []) (experimentPhase l logbook hosts skip) := by
  refine .experiment experimentPhase_jobClass ?jobClass ?leader ?jobs experimentPhase_skipped
  case jobClass => rw [experimentPhase_jobClass, experimentPhase_jobClass]
  case leader => rw [experimentPhase_leader, experimentPhase_leader]
  case jobs =>
    rw [experimentPhase_jobs, experimentPhase_jobs, List.filter_map]
    simp [Function.comp_def, experimentJob]

theorem leaderNotices_experimentPhase (l : Launch) :
    leaderNotices l (experimentPhase l logbook hosts skip) = leaderNotices l (experimentPhase l logbook hosts []) := by
  unfold leaderNotices
  rw [experimentPhase_leader, experimentPhase_leader]

theorem agree_planExperiment :
    Agree (fun full part => List.Forall₂ (Silenced skip (hosts.map (·.id))) full.1 part.1 ∧ part.2 = full.2)
      (planExperiment c logbook { r with skip := [] } hosts)
      (planExperiment c logbook { r with skip := skip } hosts) := by
  simp only [planExperiment]
  split
  · split
    · rename_i l _
      exact .ok ⟨.cons (silenced_experimentPhase l) .nil, by rw [leaderNotices_experimentPhase]⟩
    · exact .error _
  · exact .ok ⟨.nil, rfl⟩

/-- **Skipping hosts only silences them.**  With and without a list of skipped hosts, a request fails with the same
fault or gives plans that have everything in common but the experiment's phase.  There the class and the leader are
the same, the jobs are those of the hosts that are not skipped, unchanged and in the same order, and the phase names
the active hosts that are skipped. -/
theorem make_skip (c : Config) (r : Request) (nodeText : Except SystemFault String) (stamp : String)
    (skip : List String) :
    Agree (Quieter r.limit skip)
      (make c { r with skip := [] } nodeText stamp) (make c { r with skip := skip } nodeText stamp) := by
  unfold make
  refine .bind_same _ fun text _ => .bind_same _ fun entries _ => .bind_same _ fun roster _ => ?_
  refine .bind_same _ fun resolved _ => .bind_same _ fun sync hsync => .bind_same _ fun data hdata => ?_
  refine .bind agree_planExperiment fun full part h => .ok ?_
  exact {
    config := rfl
    testbed := rfl
    roster := rfl
    notices := h.2
    phases := List.rel_append (ordinary_front hsync hdata).silenced h.1 }

end Fleet.Plan
