import Fleet.Proofs.NodeFile
import Fleet.Proofs.Plan.Make
import Fleet.Proofs.Roster

/-!
# One topology for all hosts of an experiment

The ids of a roster are pairwise different, not empty and free of commas, so the peers on a command line can be
read back.  Together with its own id and position, each host of an experiment puts together the same list.
-/

namespace Fleet.Plan

/-- A host's job in an experiment: from what its command line says of the others, the host puts together the ids of
all active hosts. -/
structure Agreed (l : Launch) (ids : List String) (job : Job) (position : Nat) : Prop where
  id : ids[position]? = some job.host.id
  command : ∃ remotes,
    job.command = l.opening ++ "--hostname=" ++ job.host.id ++ " --host_id=" ++ toString position ++
        " --remotes=" ++ remotes ++ (if l.isLeader job.host.id then l.leaderText else "") ++ l.closing ∧
      Launch.topology remotes job.host.id position = ids

variable {l : Launch} {logbook : Logbook} {hosts : List Host} {skip : List String}

/-- The positions of the hosts that are not skipped, in ascending order. -/
def positions (hosts : List Host) (skip : List String) : List Nat :=
  (hosts.zipIdx.filter (·.1.id ∉ skip)).map (·.2)

theorem positions_sublist : (positions hosts skip).Sublist (List.range hosts.length) := by
  have h := (List.filter_sublist (p := (·.1.id ∉ skip)) (l := hosts.zipIdx)).map Prod.snd
  rwa [List.zipIdx_map_snd, ← List.range_eq_range'] at h

theorem positions_pairwise : (positions hosts skip).Pairwise (· < ·) :=
  List.pairwise_lt_range.sublist positions_sublist

theorem lt_of_mem_positions {i : Nat} (h : i ∈ positions hosts skip) : i < hosts.length :=
  List.mem_range.1 (positions_sublist.subset h)

theorem agreed_experimentPhase (hd : (hosts.map (·.id)).Nodup)
    (hids : ∀ id ∈ hosts.map (·.id), id ≠ "" ∧ ',' ∉ id.toList) :
    List.Forall₂ (Agreed l (hosts.map (·.id))) (experimentPhase l logbook hosts skip).jobs
      (positions hosts skip) := by
  rw [experimentPhase_jobs, positions, List.forall₂_map_left_iff, List.forall₂_map_right_iff,
    List.forall₂_same]
  intro x hx
  have hat : hosts[x.2]? = some x.1 := List.mem_zipIdx_iff_getElem?.1 (List.mem_of_mem_filter hx)
  have hid : (hosts.map (·.id))[x.2]? = some x.1.id := by
    rw [List.getElem?_map, hat]
    rfl
  exact ⟨hid, _, Launch.command_eq l hosts x.1.id x.2 _, Launch.topology_peers hd hids hid⟩

variable {c : Config} {r : Request} {nodeText : Except SystemFault String} {stamp : String} {plan : Plan}

theorem id_of_make (h : make c r nodeText stamp = .ok plan) {id : String}
    (hid : id ∈ plan.roster.hosts.map (·.id)) : id ≠ "" ∧ ',' ∉ id.toList := by
  obtain ⟨text, entries, sync, data, experiment, made⟩ := made_of_make h
  obtain ⟨entry, hentry, rfl⟩ := Roster.mem_resolve made.roster_eq hid
  exact NodeFile.id_of_mem_parse made.entries_eq hentry

/-- **All hosts of an experiment agree on the topology.**  The command lines of an experiment's phase differ only in
the host's id, its position among the active hosts, the ids of the others and the leader's arguments.  Positions
ascend, and from its own command line every host puts together the same list: the ids of the active hosts in their
order, skipped ones included. -/
theorem agreed_topology (h : make c r nodeText stamp = .ok plan) {phase : Phase} (hphase : phase ∈ plan.phases)
    {name : String} (hclass : phase.jobClass = .experiment name) :
    ∃ l places, Launch.resolve plan.config name r.options = .ok l ∧
      places.Pairwise (· < ·) ∧ (∀ i ∈ places, i < (plan.roster.active r.limit).length) ∧
      List.Forall₂ (Agreed l ((plan.roster.active r.limit).map (·.id))) phase.jobs places := by
  obtain ⟨l, hl, rfl⟩ := experimentPhase_of_mem h hphase hclass
  have hids : ∀ id ∈ (plan.roster.active r.limit).map (·.id), id ≠ "" ∧ ',' ∉ id.toList := by
    intro id hid
    exact id_of_make h (((plan.roster.active_sublist r.limit).map _).subset hid)
  exact ⟨l, positions (plan.roster.active r.limit) r.skip, hl, positions_pairwise,
    fun i hi => lt_of_mem_positions hi, agreed_experimentPhase (plan.roster.nodup_active r.limit) hids⟩

theorem agreed_topology_sample :
    ∃ plan phase, make sampleConfig sampleRequest (.ok sampleNodes) "" = .ok plan ∧
      phase ∈ plan.phases ∧ phase.jobClass = .experiment "bench" ∧
      phase.jobs.map (·.command) =
        ["/opt/bench --hostname=n2 --host_id=1 --remotes=n1,n3 --warm=true",
          "/opt/bench --hostname=n3 --host_id=2 --remotes=n1,n2"] ∧
      ∃ l places, Launch.resolve plan.config "bench" sampleRequest.options = .ok l ∧
        places.Pairwise (· < ·) ∧ (∀ i ∈ places, i < (plan.roster.active none).length) ∧
        List.Forall₂ (Agreed l ((plan.roster.active none).map (·.id))) phase.jobs places := by
  have hsample : ∃ plan phase, make sampleConfig sampleRequest (.ok sampleNodes) "" = .ok plan ∧
      plan.phases = [phase] ∧ phase.jobClass = .experiment "bench" ∧
      phase.jobs.map (·.command) =
        ["/opt/bench --hostname=n2 --host_id=1 --remotes=n1,n3 --warm=true",
          "/opt/bench --hostname=n3 --host_id=2 --remotes=n1,n2"] :=
    ⟨_, _, rfl, rfl, rfl, by decide⟩
  obtain ⟨plan, phase, hplan, hphases, hclass, hcommands⟩ := hsample
  have hphase : phase ∈ plan.phases := by
    rw [hphases]
    exact List.mem_singleton_self phase
  exact ⟨plan, phase, hplan, hphase, hclass, hcommands, agreed_topology hplan hphase hclass⟩

end Fleet.Plan
