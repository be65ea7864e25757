import Fleet.Plan
import Mathlib.Data.List.Basic

/-!
# The phase of an experiment, part by part

`experimentPhase` goes once through the active hosts and decides at each of them whether it leads and whether it
is skipped.  `enlist_eq` says what one host adds to each part of the phase, `foldl_enlist` what several of them add,
and `experimentPhase_*` what all of them come to: the leader does not depend on who is skipped, and the jobs and the
skipped ids share out the hosts.
-/

namespace Fleet.Plan

variable {l : Launch} {logbook : Logbook} {hosts : List Host} {skip : List String}

/-! ### host by host -/

theorem enlist_eq (phase : Phase) (x : Host × Nat) :
    enlist l logbook hosts skip phase x =
      { jobClass := phase.jobClass
        leader := (leaderStep? l logbook x.1).or phase.leader
        jobs := phase.jobs ++ if x.1.id ∈ skip then [] else [experimentJob l logbook hosts x.1 x.2]
        skipped := phase.skipped ++ if x.1.id ∈ skip then [x.1.id] else [] } := by
  by_cases hskip : x.1.id ∈ skip
  · cases hlead : leaderStep? l logbook x.1 <;> simp [enlist, hskip, hlead]
  · cases hlead : leaderStep? l logbook x.1 <;> simp [enlist, hskip, hlead]

theorem foldl_enlist (xs : List (Host × Nat)) (phase : Phase) :
    xs.foldl (enlist l logbook hosts skip) phase =
      { jobClass := phase.jobClass
        leader := (xs.filterMap fun x => leaderStep? l logbook x.1).getLast?.or phase.leader
        jobs := phase.jobs ++ (xs.filter (·.1.id ∉ skip)).map fun x => experimentJob l logbook hosts x.1 x.2
        skipped := phase.skipped ++ (xs.map (·.1.id)).filter (· ∈ skip) } := by
  induction xs generalizing phase with
  | nil => simp
  | cons x rest ih =>
    rw [List.foldl_cons, ih, enlist_eq, Phase.mk.injEq]
    refine ⟨rfl, ?leads, ?enlisted, ?silent⟩
    case leads =>
      rw [List.filterMap_cons]
      cases leaderStep? l logbook x.1 with
      | none => rfl
      | some step =>
        rw [List.getLast?_cons]
        cases (rest.filterMap fun x => leaderStep? l logbook x.1).getLast? <;> rfl
    case enlisted =>
      rw [List.filter_cons]
      by_cases h : x.1.id ∈ skip <;> simp [h]
    case silent =>
      rw [List.map_cons, List.filter_cons]
      by_cases h : x.1.id ∈ skip <;> simp [h]

/-! ### the phase -/

theorem experimentPhase_jobClass :
    (experimentPhase l logbook hosts skip).jobClass = .experiment l.experiment := by
  rw [experimentPhase, foldl_enlist]
  rfl

theorem experimentPhase_leader :
    (experimentPhase l logbook hosts skip).leader = (hosts.filterMap (leaderStep? l logbook)).getLast? := by
  have hfst : hosts.zipIdx.filterMap (fun x => leaderStep? l logbook x.1) =
      hosts.filterMap (leaderStep? l logbook) := by
    conv_rhs => rw [← List.zipIdx_map_fst 0 hosts, List.filterMap_map]
    rfl
  rw [experimentPhase, foldl_enlist, hfst]
  exact Option.or_none

/-- Every host that is not skipped has one job, in the order of the hosts, and its position is the one it has among
all of them. -/
theorem experimentPhase_jobs :
    (experimentPhase l logbook hosts skip).jobs =
      (hosts.zipIdx.filter (·.1.id ∉ skip)).map fun x => experimentJob l logbook hosts x.1 x.2 := by
  rw [experimentPhase, foldl_enlist]
  rfl

theorem experimentPhase_skipped :
    (experimentPhase l logbook hosts skip).skipped = (hosts.map (·.id)).filter (· ∈ skip) := by
  have hfst : hosts.zipIdx.map (·.1.id) = hosts.map (·.id) := by
    conv_rhs => rw [← List.zipIdx_map_fst 0 hosts, List.map_map]
    rfl
  rw [experimentPhase, foldl_enlist, hfst]
  rfl

end Fleet.Plan
