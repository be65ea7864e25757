import Fleet.Proofs.Plan.Checks
import Fleet.Proofs.Plan.Leader
import Fleet.Proofs.Plan.Skip

/-!
# The leader step

An experiment's phase has a leader step if its leader and the command for it are configured and the leader is active
(`isSome_leader_experimentPhase`).  If it is not active, that is told once, and nothing of the kind is told otherwise
(`count_leaderNotices`).  Who is skipped makes no difference to either (`make_with_skip`).
-/

namespace Fleet

/-! ### what is told -/

namespace Notice

theorem line_leaderNotActive (id : String) :
    (leaderNotActive id).line = "WARN leader " ++ id ++ " is not among the active hosts" := by
  have hline : (leaderNotActive id).line =
    "WARN" ++ " " ++ ("leader " ++ id ++ " is not among the active hosts") := rfl
  have hbegin : "WARN" ++ " " ++ "leader " = "WARN leader " := rfl
  rw [hline, ← hbegin]
  simp only [String.append_assoc]

theorem line_leaderNotActive_inj {id id' : String} :
    (leaderNotActive id).line = (leaderNotActive id').line ↔ id = id' := by
  simp only [line_leaderNotActive, String.append_left_inj, String.append_right_inj]

theorem line_noDefaultArguments_ne (experiment id : String) :
    (noDefaultArguments experiment).line ≠ (leaderNotActive id).line := by
  intro h
  have htext : "no default arguments configured for experiment " ++ experiment =
      "leader " ++ id ++ " is not among the active hosts" := (String.append_right_inj _).mp h
  have hfirst := congrArg (·.toList.head?) htext
  simp at hfirst

end Notice

theorem Experiment.isLed_iff {e : Experiment} {id : String} :
    e.isLed id = true ↔ e.leader = some id ∧ e.leaderCommand.isSome := by
  simp [isLed]

theorem Launch.leaderOf_eq_some {e : Experiment} {leader : Leader} (h : leaderOf e = some leader) :
    e.leader = some leader.id ∧ e.leaderCommand = some leader.command := by
  unfold leaderOf at h
  split at h
  · rename_i id command hid hcommand
    cases h
    exact ⟨hid, hcommand⟩
  · cases h

namespace Plan

variable {c : Config} {r : Request} {logbook : Logbook} {hosts : List Host} {l : Launch} {e : Experiment}
  {text stamp : String} {plan : Plan}

/-- The leader step of an experiment on the active hosts: the configured command on the one host that has the leader's
id, and the configured barrier behind it. -/
structure IsLeaderStep (e : Experiment) (logbook : Logbook) (active : List Host) (step : LeaderStep) : Prop where
  id : e.leader = some step.job.host.id
  host : step.job.host ∈ active
  unique : ∀ host ∈ active, host.id = step.job.host.id → host = step.job.host
  jobClass : step.job.jobClass = .leader
  place : step.job.place = .host
  command : e.leaderCommand = some step.job.command
  log : step.job.log = logbook.logPath .leader step.job.host.id step.job.host.hostname
  folders : step.job.folders = []
  barrier : step.barrier = ⟨e.leaderDelay.getD Config.defaultLeaderDelay, e.leaderPort⟩

/-! ### the phase -/

theorem isSome_leaderStep? (l : Launch) (logbook : Logbook) (h : Host) :
    (leaderStep? l logbook h).isSome = l.isLeader h.id := by
  unfold leaderStep? Launch.isLeader
  cases l.leader with
  | none => rfl
  | some leader => cases hid : leader.id == h.id <;> simp [hid]

theorem isSome_leader_experimentPhase (l : Launch) (logbook : Logbook) (hosts : List Host) (skip : List String) :
    (experimentPhase l logbook hosts skip).leader.isSome ↔ ∃ id ∈ hosts.map (·.id), l.isLeader id = true := by
  rw [experimentPhase_leader, List.getLast?_isSome, ne_eq, List.filterMap_eq_nil_iff]
  simp [← isSome_leaderStep? l logbook, Option.isSome_iff_ne_none]

theorem isLeaderStep_of_experimentPhase {skip : List String} {step : LeaderStep}
    (hleader : l.leader = Launch.leaderOf e) (hbarrier : l.barrier = Launch.barrierOf e) (hd : (hosts.map (·.id)).Nodup)
    (hstep : (experimentPhase l logbook hosts skip).leader = some step) : IsLeaderStep e logbook hosts step := by
  obtain ⟨h, hh, hstep⟩ := leader_of_experimentPhase hstep
  obtain ⟨leader, hled, rfl⟩ := Option.map_eq_some_iff.mp hstep
  obtain ⟨hsome, hid⟩ := Option.filter_eq_some_iff.mp hled
  obtain ⟨hconfigured, hcommand⟩ := Launch.leaderOf_eq_some (hleader.symm.trans hsome)
  have hsame : leader.id = h.id := by simpa using hid
  exact {
    id := hsame ▸ hconfigured
    host := hh
    unique := fun other hother heq => List.inj_on_of_nodup_map hd hother hh heq
    jobClass := rfl
    place := rfl
    command := hcommand
    log := rfl
    folders := rfl
    barrier := hbarrier }

/-! ### the notices -/

theorem count_leaderNotices (l : Launch) (phase : Phase) (id : String) :
    ((leaderNotices l phase).map Notice.line).count (Notice.leaderNotActive id).line =
      if l.isLeader id = true ∧ phase.leader.isNone = true then 1 else 0 := by
  unfold leaderNotices Launch.isLeader
  cases l.leader with
  | none => simp
  | some leader =>
    cases phase.leader with
    | some step => simp
    | none =>
      simp [List.count_singleton, Notice.line_leaderNotActive_inj]

theorem count_launchNotices (c : Config) (name id : String) :
    ((Launch.notices c name).map Notice.line).count (Notice.leaderNotActive id).line = 0 := by
  refine List.count_eq_zero_of_not_mem fun hmem => ?_
  obtain ⟨notice, hnotice, hline⟩ := List.mem_map.mp hmem
  unfold Launch.notices at hnotice
  split at hnotice
  · split at hnotice
    · obtain rfl := List.mem_singleton.mp hnotice
      exact Notice.line_noDefaultArguments_ne name id hline
    · cases hnotice
  · cases hnotice

/-! ### skipped hosts -/

theorem planExperiment_with_skip {phases : List Phase} {notices : List Notice}
    (h : planExperiment c logbook r hosts = .ok (phases, notices)) (skip : List String) :
    ∃ phases', planExperiment c logbook { r with skip } hosts = .ok (phases', notices) ∧
      ∀ phase ∈ phases, ∃ phase' ∈ phases', phase'.jobClass = phase.jobClass ∧ phase'.leader = phase.leader := by
  unfold planExperiment at h ⊢
  split at h
  · rename_i name hname hremote
    split at h
    · rename_i l hl
      cases h
      have hnotices : leaderNotices l (experimentPhase l logbook hosts skip) =
          leaderNotices l (experimentPhase l logbook hosts r.skip) :=
        (leaderNotices_experimentPhase l).trans (leaderNotices_experimentPhase l).symm
      refine ⟨[experimentPhase l logbook hosts skip], ?_, List.forall_mem_singleton.mpr ?_⟩
      · simp only [hname, hremote, hl, hnotices]
      · refine ⟨_, List.mem_singleton_self _, ?_, ?_⟩
        · rw [experimentPhase_jobClass, experimentPhase_jobClass]
        · rw [experimentPhase_leader, experimentPhase_leader]
    · cases h
  · cases h
    exact ⟨[], rfl, nofun⟩

theorem make_with_skip {nodeText : Except SystemFault String} (h : make c r nodeText stamp = .ok plan)
    (skip : List String) :
    ∃ plan', make c { r with skip } nodeText stamp = .ok plan' ∧ plan'.notices = plan.notices ∧
      ∀ phase ∈ plan.phases, ∃ phase' ∈ plan'.phases,
        phase'.jobClass = phase.jobClass ∧ phase'.leader = phase.leader := by
  obtain ⟨text, entries, sync, data, experiment, made⟩ := made_of_make h
  obtain ⟨experiment', hexperiment, hsame⟩ := planExperiment_with_skip made.experiment_eq skip
  refine ⟨{ plan with phases := sync ++ data ++ planCommand plan.book r (plan.roster.active r.limit) ++ experiment' },
    make_of_made { made with experiment_eq := hexperiment, phases_eq := rfl }, rfl, fun phase hphase => ?_⟩
  rw [made.phases_eq] at hphase
  rcases List.mem_append.mp hphase with hphase | hphase
  · exact ⟨phase, List.mem_append_left _ hphase, rfl, rfl⟩
  · obtain ⟨phase', hphase', hboth⟩ := hsame phase hphase
    exact ⟨phase', List.mem_append_right _ hphase', hboth⟩

/-! ### active hosts -/

/-- A leader is not active for one of three reasons: it is offline, it is not listed, or it is beyond the limit. -/
theorem not_active {s : Roster} {suffix : String → Option String} (hs : Roster.Lists suffix (online r text) s)
    (limit : Option Nat) (id : String) :
    id ∉ (s.active limit).map (·.id) ↔
      id ∈ r.offline ∨ id ∉ (NodeFile.listed text).map (·.id) ∨
        id ∈ (s.hosts.drop (limit.getD s.hosts.length)).map (·.id) := by
  have hhosts : s.active limit ++ s.hosts.drop (limit.getD s.hosts.length) = s.hosts := by
    cases limit with
    | none => simp [Roster.active]
    | some n => exact List.take_append_drop n s.hosts
  have hmem : id ∈ s.hosts.map (·.id) ↔ id ∉ r.offline ∧ id ∈ (NodeFile.listed text).map (·.id) := mem_hosts hs
  have hdistinct := s.distinct
  rw [← hhosts, List.map_append] at hmem hdistinct
  rw [List.mem_append] at hmem
  -- an id within the limit is not beyond it too
  have hapart : id ∈ (s.active limit).map (·.id) →
      id ∉ (s.hosts.drop (limit.getD s.hosts.length)).map (·.id) :=
    fun hactive hbeyond => List.disjoint_of_nodup_append hdistinct hactive hbeyond
  constructor
  · intro hnot
    by_contra hnone
    simp only [not_or, not_not] at hnone
    obtain ⟨honline, hlisted, hwithin⟩ := hnone
    rcases hmem.mpr ⟨honline, hlisted⟩ with hactive | hbeyond
    · exact hnot hactive
    · exact hwithin hbeyond
  · rintro (hoffline | hunlisted | hbeyond) hactive
    · exact (hmem.mp (.inl hactive)).1 hoffline
    · exact hunlisted (hmem.mp (.inl hactive)).2
    · exact hapart hactive hbeyond

/-! ### the whole plan -/

theorem led_of_make {nodeText : Except SystemFault String} (h : make c r nodeText stamp = .ok plan) {phase : Phase}
    (hphase : phase ∈ plan.phases) {name : String} (hclass : phase.jobClass = .experiment name) :
    ∃ e l, c.experiments.get? name = some e ∧ l.leader = Launch.leaderOf e ∧ l.barrier = Launch.barrierOf e ∧
      phase = experimentPhase l ⟨c.common.logDirectory, testbedLabel r.nodeFile⟩ (plan.roster.active r.limit) r.skip ∧
      plan.notices = Launch.notices plan.config name ++ leaderNotices l phase := by
  obtain ⟨text, entries, sync, data, experiment, made⟩ := made_of_make h
  obtain ⟨l, hl, hlaunch, hnotices⟩ := launch_of_mem h hphase hclass
  obtain ⟨e, _, _, _, _, he, -, -, -, -, rfl⟩ := Launch.resolve_eq_ok hl
  have heffective := effective_of_resolveConfig made.config_eq
  obtain ⟨args, he⟩ := heffective.experiment he
  have hbook : plan.book = ⟨c.common.logDirectory, testbedLabel r.nodeFile⟩ := by
    rw [book, heffective.common, made.testbed_eq]
  rw [hbook] at hlaunch
  exact ⟨{ e with args }, _, he, rfl, rfl, hlaunch, hnotices⟩

/-- **The leader step.**  An experiment's phase has a leader step exactly if the experiment has a leader with a command
and the leader is active; the step is then that of the one host with the leader's id.  A leader that is not active,
because it is offline, not listed or beyond the limit, is told of once, and nothing of the kind is told otherwise.
None of this changes with the skipped hosts. -/
theorem leader_step (h : make c r (.ok text) stamp = .ok plan) {phase : Phase} (hphase : phase ∈ plan.phases)
    {name : String} (hclass : phase.jobClass = .experiment name) :
    ∃ e active, c.experiments.get? name = some e ∧ active = plan.roster.active r.limit ∧
      (phase.leader.isSome ↔ e.leaderCommand.isSome ∧ ∃ id ∈ active.map (·.id), e.leader = some id) ∧
      (∀ step, phase.leader = some step →
        IsLeaderStep e ⟨c.common.logDirectory, testbedLabel r.nodeFile⟩ active step) ∧
      (∀ id, (plan.notices.map Notice.line).count ("WARN leader " ++ id ++ " is not among the active hosts") =
        if e.leader = some id ∧ e.leaderCommand.isSome ∧ id ∉ active.map (·.id) then 1 else 0) ∧
      (∀ id, id ∉ active.map (·.id) ↔
        id ∈ r.offline ∨ id ∉ (NodeFile.listed text).map (·.id) ∨
          id ∈ (plan.roster.hosts.drop (r.limit.getD plan.roster.hosts.length)).map (·.id)) ∧
      ∀ skip, ∃ plan', make c { r with skip } (.ok text) stamp = .ok plan' ∧ plan'.notices = plan.notices ∧
        ∃ phase' ∈ plan'.phases, phase'.jobClass = .experiment name ∧ phase'.leader = phase.leader := by
  obtain ⟨e, l, he, hleader, hbarrier, hlaunch, hnotices⟩ := led_of_make h hphase hclass
  have hled : ∀ id, l.isLeader id = true ↔ e.leader = some id ∧ e.leaderCommand.isSome := fun id => by
    rw [Launch.isLeader_eq_isLed hleader, Experiment.isLed_iff]
  have hsome : phase.leader.isSome ↔
      e.leaderCommand.isSome ∧ ∃ id ∈ (plan.roster.active r.limit).map (·.id), e.leader = some id := by
    rw [hlaunch, isSome_leader_experimentPhase]
    simp only [hled]
    constructor
    · rintro ⟨id, hid, hleader, hcommand⟩
      exact ⟨hcommand, id, hid, hleader⟩
    · rintro ⟨hcommand, id, hid, hleader⟩
      exact ⟨id, hid, hleader, hcommand⟩
  refine ⟨e, _, he, rfl, hsome, fun step hstep => ?step, fun id => ?told, not_active (lists_roster h) r.limit,
    fun skip => ?skipped⟩
  case step =>
    rw [hlaunch] at hstep
    exact isLeaderStep_of_experimentPhase hleader hbarrier (plan.roster.nodup_active r.limit) hstep
  case told =>
    rw [← Notice.line_leaderNotActive, hnotices, List.map_append, List.count_append, count_launchNotices,
      count_leaderNotices, Nat.zero_add]
    refine if_congr ?_ rfl rfl
    rw [hled, and_assoc]
    refine and_congr_right fun hid => and_congr_right fun hcommand => ?_
    -- no other host can have the step of this leader
    have hactive : phase.leader.isSome ↔ id ∈ (plan.roster.active r.limit).map (·.id) := by
      rw [hsome]
      simp [hid, hcommand]
    rw [← hactive]
    simp
  case skipped =>
    obtain ⟨plan', hplan', hsame, hphases⟩ := make_with_skip h skip
    obtain ⟨phase', hphase', hclass', hleader'⟩ := hphases phase hphase
    exact ⟨plan', hplan', hsame, phase', hphase', hclass'.trans hclass, hleader'⟩

/-- The leader's command runs though the leader is skipped, and a leader beyond the limit is told of. -/
theorem leader_step_sample :
    (∃ plan phase step,
      make (ledConfig (some "./lead")) { sampleRequest with skip := ["n1", "n2"] } (.ok sampleNodes) "" = .ok plan ∧
      plan.phases = [phase] ∧ phase.jobs.map (·.host.id) = ["n3"] ∧ phase.leader = some step ∧
      step.job.host.id = "n2" ∧ step.job.command = "./lead" ∧ step.barrier = ⟨2000, none⟩) ∧
    ∃ plan phase,
      make (ledConfig (some "./lead")) { sampleRequest with limit := some 1 } (.ok sampleNodes) "" = .ok plan ∧
      plan.phases = [phase] ∧ phase.leader = none ∧
      (plan.notices.map Notice.line).count "WARN leader n2 is not among the active hosts" = 1 := by
  constructor
  · have hsample : ∃ plan phase, make (ledConfig (some "./lead")) { sampleRequest with skip := ["n1", "n2"] }
          (.ok sampleNodes) "" = .ok plan ∧
        plan.phases = [phase] ∧ phase.jobClass = .experiment "bench" ∧ phase.jobs.map (·.host.id) = ["n3"] ∧
        "n2" ∈ (plan.roster.active none).map (·.id) :=
      ⟨_, _, rfl, rfl, rfl, rfl, by decide⟩
    obtain ⟨plan, phase, hplan, hphases, hclass, hjobs, hactive⟩ := hsample
    have hphase : phase ∈ plan.phases := by
      rw [hphases]
      exact List.mem_singleton_self phase
    obtain ⟨e, _, he, rfl, hsome, hsteps, -⟩ := leader_step hplan hphase hclass
    cases he
    obtain ⟨step, hstep⟩ := Option.isSome_iff_exists.mp (hsome.mpr ⟨rfl, "n2", hactive, rfl⟩)
    have his := hsteps step hstep
    exact ⟨plan, phase, step, hplan, hphases, hjobs, hstep, (Option.some.inj his.id).symm,
      (Option.some.inj his.command).symm, his.barrier⟩
  · have hsample : ∃ plan phase, make (ledConfig (some "./lead")) { sampleRequest with limit := some 1 }
          (.ok sampleNodes) "" = .ok plan ∧
        plan.phases = [phase] ∧ phase.jobClass = .experiment "bench" ∧ phase.leader = none ∧
        "n2" ∈ (plan.roster.hosts.drop 1).map (·.id) :=
      ⟨_, _, rfl, rfl, rfl, rfl, by decide⟩
    obtain ⟨plan, phase, hplan, hphases, hclass, hleader, hbeyond⟩ := hsample
    have hphase : phase ∈ plan.phases := by
      rw [hphases]
      exact List.mem_singleton_self phase
    obtain ⟨e, _, he, rfl, -, -, htold, habsent, -⟩ := leader_step hplan hphase hclass
    cases he
    have hcount := htold "n2"
    rw [if_pos ⟨rfl, rfl, (habsent "n2").mpr (.inr (.inr hbeyond))⟩] at hcount
    exact ⟨plan, phase, hplan, hphases, hleader, hcount⟩

end Plan

end Fleet
