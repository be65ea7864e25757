import Fleet.Proofs.Plan.Make
import Fleet.Proofs.Roster

/-!
# The phases of a plan

`agenda` lists the phases that a request comes to, with the hosts that each of them goes to and where the commands
run, and a plan has exactly these phases (`map_contacts`).  `Planned` says what each of them owes to its hosts: every
job has the class of its phase and the log of its class and host, no host has two jobs, and only the experiment's
phase has a leader (`planned_of_make`).
-/

namespace Fleet

/-- All jobs of a phase, that of the leader step first. -/
def Phase.allJobs (phase : Phase) : List Job := phase.leader.toList.map (·.job) ++ phase.jobs

/-- The class of a phase, and for each of its jobs the host and the place where it runs. -/
def Phase.contacts (phase : Phase) : JobClass × List (Host × Place) :=
  (phase.jobClass, phase.jobs.map fun job => (job.host, job.place))

namespace Plan

def allJobs (plan : Plan) : List Job := plan.phases.flatMap Phase.allJobs

variable {c : Config} {r : Request} {logbook : Logbook} {hosts : List Host} {l : Launch} {phases : List Phase}

/-! ### what a phase owes to its hosts -/

/-- A phase for hosts is in order. -/
structure Planned (r : Request) (logbook : Logbook) (hosts : List Host) (phase : Phase) : Prop where
  jobClass : ∀ job ∈ phase.jobs, job.jobClass = phase.jobClass
  host : ∀ job ∈ phase.allJobs, job.host ∈ hosts
  log : ∀ job ∈ phase.allJobs, job.log = logbook.logPath job.jobClass job.host.id job.host.hostname
  distinct : (phase.jobs.map (·.host.id)).Nodup
  leader : ∀ step, phase.leader = some step →
    step.job.jobClass = .leader ∧ ∃ name, r.experiment = some name ∧ phase.jobClass = .experiment name

/-- A phase goes to hosts, in their order, and is in order. -/
structure Sends (r : Request) (logbook : Logbook) (jobClass : JobClass) (place : Place) (hosts : List Host)
    (phase : Phase) : Prop where
  contacts : phase.contacts = (jobClass, hosts.map (·, place))
  planned : Planned r logbook hosts phase

theorem sends_ofJobs {jobClass : JobClass} {place : Place} {job : Host → Job} (hd : (hosts.map (·.id)).Nodup)
    (hjob : ∀ h, (job h).host = h ∧ (job h).place = place ∧ (job h).jobClass = jobClass ∧
      (job h).log = logbook.logPath jobClass h.id h.hostname) :
    Sends r logbook jobClass place hosts (.ofJobs jobClass (hosts.map job)) := by
  have hmem : ∀ x ∈ hosts.map job, x.host ∈ hosts ∧ x.jobClass = jobClass ∧
      x.log = logbook.logPath x.jobClass x.host.id x.host.hostname := by
    intro x hx
    obtain ⟨h, hh, rfl⟩ := List.mem_map.mp hx
    obtain ⟨hhost, -, hclass, hlog⟩ := hjob h
    rw [hhost, hclass]
    exact ⟨hh, rfl, hlog⟩
  refine ⟨?_, fun x hx => (hmem x hx).2.1, fun x hx => (hmem x hx).1, fun x hx => (hmem x hx).2.2, ?_, nofun⟩
  · simp [Phase.contacts, Phase.ofJobs, Function.comp_def, hjob]
  · rw [Phase.ofJobs, List.map_map]
    simpa only [Function.comp_def, hjob] using hd

theorem leaderStep?_eq_some {h : Host} {step : LeaderStep} (hstep : leaderStep? l logbook h = some step) :
    step.job.host = h ∧ step.job.jobClass = .leader ∧ step.job.log = logbook.logPath .leader h.id h.hostname := by
  obtain ⟨leader, -, rfl⟩ := Option.map_eq_some_iff.mp hstep
  exact ⟨rfl, rfl, rfl⟩

theorem leader_of_experimentPhase {skip : List String} {step : LeaderStep}
    (hstep : (experimentPhase l logbook hosts skip).leader = some step) :
    ∃ h ∈ hosts, leaderStep? l logbook h = some step := by
  rw [experimentPhase_leader] at hstep
  exact List.mem_filterMap.mp (List.mem_of_getLast? hstep)

theorem hosts_of_experimentPhase (l : Launch) (logbook : Logbook) (hosts : List Host) (skip : List String) :
    (experimentPhase l logbook hosts skip).jobs.map (·.host) = hosts.filter (·.id ∉ skip) := by
  rw [experimentPhase_jobs, List.map_map]
  conv_rhs => rw [← List.zipIdx_map_fst 0 hosts, List.filter_map]
  rfl

theorem planned_experimentPhase (hd : (hosts.map (·.id)).Nodup) (hname : r.experiment = some l.experiment)
    (skip : List String) : Planned r logbook hosts (experimentPhase l logbook hosts skip) := by
  have hjob : ∀ job ∈ (experimentPhase l logbook hosts skip).jobs, job.host ∈ hosts ∧
      job.jobClass = .experiment l.experiment ∧
      job.log = logbook.logPath job.jobClass job.host.id job.host.hostname := by
    intro job hjob
    rw [experimentPhase_jobs] at hjob
    obtain ⟨x, hx, rfl⟩ := List.mem_map.mp hjob
    exact ⟨List.fst_mem_of_mem_zipIdx (List.mem_of_mem_filter hx), rfl, rfl⟩
  have hall : ∀ job ∈ (experimentPhase l logbook hosts skip).allJobs, job.host ∈ hosts ∧
      job.log = logbook.logPath job.jobClass job.host.id job.host.hostname := by
    intro job hmem
    rcases List.mem_append.mp hmem with hmem | hmem
    · obtain ⟨step, hstep, rfl⟩ := List.mem_map.mp hmem
      obtain ⟨h, hh, hstep⟩ := leader_of_experimentPhase (Option.mem_toList.mp hstep)
      obtain ⟨rfl, hclass, hlog⟩ := leaderStep?_eq_some hstep
      exact ⟨hh, by rw [hlog, hclass]⟩
    · exact ⟨(hjob job hmem).1, (hjob job hmem).2.2⟩
  refine ⟨fun job hmem => ?_, fun job hmem => (hall job hmem).1, fun job hmem => (hall job hmem).2, ?_, ?_⟩
  · rw [(hjob job hmem).2.1, experimentPhase_jobClass]
  · have hids : (experimentPhase l logbook hosts skip).jobs.map (·.host.id) =
        (hosts.filter (·.id ∉ skip)).map (·.id) := by
      rw [← hosts_of_experimentPhase l logbook, List.map_map]
      rfl
    rw [hids]
    exact hd.sublist (List.filter_sublist.map _)
  · intro step hstep
    obtain ⟨h, -, hstep⟩ := leader_of_experimentPhase hstep
    exact ⟨(leaderStep?_eq_some hstep).2.1, l.experiment, hname, experimentPhase_jobClass⟩

/-! ### the phases that a request comes to -/

/-- The phases of a request, each with the hosts it goes to and where the commands run. -/
def agenda (r : Request) (hosts active : List Host) : List (JobClass × List (Host × Place)) :=
  (if r.sync then [(.sync, hosts.map (·, .control))] else []) ++
  (if r.remoteDirectory.isSome then [(.data, active.map (·, .control))] else []) ++
  (if r.command.isSome then [(.command, active.map (·, .host))] else []) ++
  match r.experiment, r.remoteDirectory with
  | some name, none => [(.experiment name, (active.filter (·.id ∉ r.skip)).map (·, .host))]
  | _, _ => []

theorem nodup_agenda (r : Request) (hosts active : List Host) : ((agenda r hosts active).map (·.1)).Nodup := by
  unfold agenda
  cases r.sync <;> cases r.remoteDirectory <;> cases r.command <;> cases r.experiment <;> simp

theorem planSync_eq_ok (h : planSync c logbook r hosts = .ok phases) (hd : (hosts.map (·.id)).Nodup) :
    phases.map Phase.contacts = (if r.sync then [(.sync, hosts.map (·, .control))] else []) ∧
      ∀ phase ∈ phases, phase.jobClass = .sync ∧ Planned r logbook hosts phase := by
  unfold planSync at h
  split at h
  · rename_i hsync
    split at h
    · rename_i files _
      cases h
      have hsends : Sends r logbook .sync .control hosts (syncPhase c logbook files hosts) :=
        sends_ofJobs hd fun _ => ⟨rfl, rfl, rfl, rfl⟩
      rw [if_pos hsync, List.map_singleton, hsends.contacts]
      exact ⟨rfl, List.forall_mem_singleton.mpr ⟨rfl, hsends.planned⟩⟩
    · cases h
  · rename_i hsync
    cases h
    rw [if_neg hsync]
    exact ⟨rfl, by simp⟩

theorem planData_eq_ok {stamp : String} (h : planData c logbook r stamp hosts = .ok phases)
    (hd : (hosts.map (·.id)).Nodup) :
    phases.map Phase.contacts = (if r.remoteDirectory.isSome then [(.data, hosts.map (·, .control))] else []) ∧
      ∀ phase ∈ phases, phase.jobClass = .data ∧ Planned r logbook hosts phase := by
  unfold planData at h
  split at h
  · rename_i hnone
    cases h
    rw [hnone]
    exact ⟨rfl, by simp⟩
  · rename_i remoteDirectory hsome
    split at h
    · cases h
    · cases h
    · rename_i name root _ _
      cases h
      have hsends : Sends r logbook .data .control hosts
          (dataPhase c logbook root stamp name remoteDirectory hosts) :=
        sends_ofJobs hd fun _ => ⟨rfl, rfl, rfl, rfl⟩
      rw [hsome, List.map_singleton, hsends.contacts]
      exact ⟨rfl, List.forall_mem_singleton.mpr ⟨rfl, hsends.planned⟩⟩

theorem planCommand_eq (logbook : Logbook) (r : Request) (hd : (hosts.map (·.id)).Nodup) :
    (planCommand logbook r hosts).map Phase.contacts =
        (if r.command.isSome then [(.command, hosts.map (·, .host))] else []) ∧
      ∀ phase ∈ planCommand logbook r hosts, phase.jobClass = .command ∧ Planned r logbook hosts phase ∧
        ∀ job ∈ phase.jobs, r.command = some job.command := by
  unfold planCommand
  split
  · rename_i command hcommand
    have hsends : Sends r logbook .command .host hosts (commandPhase logbook command hosts) :=
      sends_ofJobs hd fun _ => ⟨rfl, rfl, rfl, rfl⟩
    rw [hcommand, List.map_singleton, hsends.contacts]
    refine ⟨rfl, List.forall_mem_singleton.mpr ⟨rfl, hsends.planned, fun job hjob => ?_⟩⟩
    obtain ⟨h, -, rfl⟩ := List.mem_map.mp hjob
    rfl
  · rename_i hnone
    rw [hnone]
    exact ⟨rfl, by simp⟩

theorem planExperiment_eq_ok {notices : List Notice} (h : planExperiment c logbook r hosts = .ok (phases, notices))
    (hd : (hosts.map (·.id)).Nodup) :
    phases.map Phase.contacts =
        (match r.experiment, r.remoteDirectory with
        | some name, none => [(.experiment name, (hosts.filter (·.id ∉ r.skip)).map (·, .host))]
        | _, _ => []) ∧
      ∀ phase ∈ phases, (∃ name, phase.jobClass = .experiment name) ∧ Planned r logbook hosts phase := by
  unfold planExperiment at h
  cases hname : r.experiment with
  | none =>
    rw [hname] at h
    cases h
    exact ⟨rfl, by simp⟩
  | some name =>
    cases hremote : r.remoteDirectory with
    | some remoteDirectory =>
      rw [hname, hremote] at h
      cases h
      exact ⟨rfl, by simp⟩
    | none =>
      rw [hname, hremote] at h
      dsimp only at h
      split at h
      · rename_i l hl
        cases h
        obtain rfl := Launch.resolve_experiment hl
        have hplaces : (experimentPhase l logbook hosts r.skip).jobs.map (fun job => (job.host, job.place)) =
            (hosts.filter (·.id ∉ r.skip)).map (·, .host) := by
          rw [← hosts_of_experimentPhase l logbook, List.map_map]
          refine List.map_congr_left fun job hjob => ?_
          rw [experimentPhase_jobs] at hjob
          obtain ⟨x, -, rfl⟩ := List.mem_map.mp hjob
          rfl
        refine ⟨?_, List.forall_mem_singleton.mpr ⟨⟨_, experimentPhase_jobClass⟩, ?_⟩⟩
        · rw [List.map_singleton, Phase.contacts, hplaces, experimentPhase_jobClass]
        · exact planned_experimentPhase hd hname r.skip
      · cases h

/-! ### the whole plan -/

variable {nodeText : Except SystemFault String} {stamp : String} {plan : Plan}

/-- **A plan has the phases of the agenda.** -/
theorem map_contacts (h : make c r nodeText stamp = .ok plan) :
    plan.phases.map Phase.contacts = agenda r plan.roster.hosts (plan.roster.active r.limit) := by
  obtain ⟨text, entries, sync, data, experiment, made⟩ := made_of_make h
  have hactive := plan.roster.nodup_active r.limit
  rw [made.phases_eq, List.map_append, List.map_append, List.map_append,
    (planSync_eq_ok made.sync_eq plan.roster.distinct).1, (planData_eq_ok made.data_eq hactive).1,
    (planCommand_eq plan.book r hactive).1, (planExperiment_eq_ok made.experiment_eq hactive).1]
  rfl

/-- The hosts that a phase of a plan may go to. -/
def audience (plan : Plan) (r : Request) (phase : Phase) : List Host :=
  if phase.jobClass = .sync then plan.roster.hosts else plan.roster.active r.limit

/-- **Every phase of a plan is in order**, and the phase of the user's command carries that command. -/
theorem planned_of_make (h : make c r nodeText stamp = .ok plan) {phase : Phase} (hphase : phase ∈ plan.phases) :
    Planned r plan.book (plan.audience r phase) phase ∧
      (phase.jobClass = .command → ∀ job ∈ phase.jobs, r.command = some job.command) := by
  obtain ⟨text, entries, sync, data, experiment, made⟩ := made_of_make h
  have hactive := plan.roster.nodup_active r.limit
  rw [made.phases_eq] at hphase
  simp only [List.mem_append] at hphase
  rcases hphase with ((hphase | hphase) | hphase) | hphase
  · obtain ⟨hclass, hplanned⟩ := (planSync_eq_ok made.sync_eq plan.roster.distinct).2 phase hphase
    rw [audience, if_pos hclass, hclass]
    exact ⟨hplanned, nofun⟩
  · obtain ⟨hclass, hplanned⟩ := (planData_eq_ok made.data_eq hactive).2 phase hphase
    rw [audience, if_neg (by simp [hclass]), hclass]
    exact ⟨hplanned, nofun⟩
  · obtain ⟨hclass, hplanned, hcommand⟩ := (planCommand_eq plan.book r hactive).2 phase hphase
    rw [audience, if_neg (by simp [hclass])]
    exact ⟨hplanned, fun _ => hcommand⟩
  · obtain ⟨⟨name, hclass⟩, hplanned⟩ := (planExperiment_eq_ok made.experiment_eq hactive).2 phase hphase
    rw [audience, if_neg (by simp [hclass]), hclass]
    exact ⟨hplanned, nofun⟩

theorem audience_sublist (plan : Plan) (r : Request) (phase : Phase) :
    (plan.audience r phase).Sublist plan.roster.hosts := by
  unfold audience
  split
  · exact .refl _
  · exact plan.roster.active_sublist r.limit

end Plan

end Fleet
