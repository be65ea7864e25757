import Fleet.Proofs.Plan.Phases

/-!
# The leader's arguments

The arguments that are configured for a leader reach the command line of the leader and no other.  A host leads an
experiment only if the experiment has a command for its leader too: a leader without a command is none
(`lone_leader`).
-/

namespace Fleet

open Yaml (Value)

/-- Whether a host leads an experiment: it is the configured leader, and there is a command for the leader. -/
def Experiment.isLed (e : Experiment) (id : String) : Bool := e.leader == some id && e.leaderCommand.isSome

/-- A configured argument as it stands on a command line, if it has a name and a value there. -/
def argumentText? (entry : Value × Value) : Option String :=
  match entry.1.scalarText?, entry.2.scalarText? with
  | some key, some value => some (" --" ++ key ++ "=" ++ value)
  | _, _ => none

/-- The configured arguments of the leader as they stand on a command line, in the order of their declaration. -/
def Experiment.leaderText? (e : Experiment) : Option String :=
  (e.leaderArgs.entries.mapM argumentText?).map String.join

namespace Launch

theorem argumentText?_of_flag {name : String} {entry : Value × Value} {f : String × String}
    (h : flag name entry = .ok f) : argumentText? entry = some (" " ++ flagText f) := by
  unfold flag at h
  unfold argumentText?
  split at h
  · cases h
  · cases h
  · rename_i key value hkey hvalue
    cases h
    have hdashes : " " ++ "--" = " --" := rfl
    rw [hkey, hvalue, flagText, ← hdashes]
    simp only [String.append_assoc]

theorem mapM_argumentText? {name : String} {entries : List (Value × Value)} {fs : List (String × String)}
    (h : flags name entries = .ok fs) : entries.mapM argumentText? = some (fs.map fun f => " " ++ flagText f) := by
  induction entries generalizing fs with
  | nil =>
    cases h
    rfl
  | cons entry rest ih =>
    unfold flags at h
    split at h
    · cases h
    · rename_i f hf
      split at h
      · rename_i others hothers
        cases h
        rw [List.mapM_cons, argumentText?_of_flag hf, ih hothers]
        rfl
      · cases h

theorem isLeader_eq_isLed {l : Launch} {e : Experiment} (h : l.leader = leaderOf e) (id : String) :
    l.isLeader id = e.isLed id := by
  unfold isLeader Experiment.isLed
  rw [h, leaderOf]
  cases e.leader <;> cases e.leaderCommand <;> simp

end Launch

namespace Plan

variable {c : Config} {r : Request} {nodeText : Except SystemFault String} {stamp : String} {plan : Plan}

theorem existsUnique_job {logbook : Logbook} {hosts : List Host} {phase : Phase} (hplanned : Planned r logbook hosts phase)
    {id : String} (hid : id ∈ phase.jobs.map (·.host.id)) :
    ∃ job ∈ phase.jobs, job.host.id = id ∧ ∀ other ∈ phase.jobs, other.host.id = id → other = job := by
  obtain ⟨job, hjob, rfl⟩ := List.mem_map.mp hid
  exact ⟨job, hjob, rfl, fun other hother heq => List.inj_on_of_nodup_map hplanned.distinct hother hjob heq⟩

/-- **The leader's arguments reach the leader, and no other host.**  All command lines of an experiment's phase are
built in the same way, and only that of the host that leads the experiment has the configured arguments of the leader,
all of them in their order and right behind the ids of the other hosts.  Every active host that is not skipped, the
leader among them, has one command line. -/
theorem leader_flags (h : make c r nodeText stamp = .ok plan) {phase : Phase} (hphase : phase ∈ plan.phases)
    {name : String} (hclass : phase.jobClass = .experiment name) :
    ∃ e l text, plan.config.experiments.get? name = some e ∧ Launch.resolve plan.config name r.options = .ok l ∧
      e.leaderText? = some text ∧
      (∀ job ∈ phase.jobs, ∃ position : Nat, (plan.roster.active r.limit)[position]? = some job.host ∧
        job.command = l.opening ++ "--hostname=" ++ job.host.id ++ " --host_id=" ++ toString position ++
          " --remotes=" ++ String.intercalate "," (Launch.peers (plan.roster.active r.limit) job.host.id) ++
          (if e.isLed job.host.id then text else "") ++ l.closing) ∧
      ∀ id ∈ (plan.roster.active r.limit).map (·.id), id ∉ r.skip →
        ∃ job ∈ phase.jobs, job.host.id = id ∧ ∀ other ∈ phase.jobs, other.host.id = id → other = job := by
  have hplanned := (planned_of_make h hphase).1
  obtain ⟨l, hl, rfl⟩ := experimentPhase_of_mem h hphase hclass
  obtain ⟨e, he, hleader, hflags⟩ := Launch.leader_of_resolve hl
  refine ⟨e, l, l.leaderText, he, hl, ?_, fun job hjob => ?_, fun id hactive hskip => existsUnique_job hplanned ?_⟩
  · rw [Experiment.leaderText?, Launch.mapM_argumentText? hflags]
    rfl
  · rw [experimentPhase_jobs] at hjob
    obtain ⟨x, hx, rfl⟩ := List.mem_map.mp hjob
    have hat : (plan.roster.active r.limit)[x.2]? = some x.1 :=
      List.mem_zipIdx_iff_getElem?.mp (List.mem_of_mem_filter hx)
    refine ⟨x.2, hat, ?_⟩
    rw [← Launch.isLeader_eq_isLed hleader]
    exact Launch.command_eq l _ x.1.id x.2 _
  · have hids : (experimentPhase l plan.book (plan.roster.active r.limit) r.skip).jobs.map (·.host.id) =
        ((plan.roster.active r.limit).filter (·.id ∉ r.skip)).map (·.id) := by
      rw [← hosts_of_experimentPhase l plan.book, List.map_map]
      rfl
    obtain ⟨host, hhost, rfl⟩ := List.mem_map.mp hactive
    rw [hids]
    exact List.mem_map_of_mem (List.mem_filter.mpr ⟨hhost, by simpa using hskip⟩)

/-- A configuration whose experiment gives its leader two arguments, with the given command for the leader. -/
def ledConfig (leaderCommand : Option String) : Config :=
  { sampleConfig with
    experiments := .ofList [("bench",
      { binDirectory := some "/opt", bin := some "bench", leader := some "n2", leaderCommand, leaderDelay := none
        leaderPort := none, args := none
        leaderArgs := (Arguments.empty.set "warm" (.bool true)).set "runs" (.number (.integer 3)) })] }

theorem leader_flags_sample :
    ∃ plan phase, make (ledConfig (some "./lead")) sampleRequest (.ok sampleNodes) "" = .ok plan ∧
      phase ∈ plan.phases ∧ phase.jobClass = .experiment "bench" ∧
      phase.jobs.map (·.command) =
        ["/opt/bench --hostname=n2 --host_id=1 --remotes=n1,n3 --warm=true --runs=3",
          "/opt/bench --hostname=n3 --host_id=2 --remotes=n1,n2"] ∧
      ∃ e text, plan.config.experiments.get? "bench" = some e ∧ e.isLed "n2" = true ∧
        e.leaderText? = some text ∧ text = " --warm=true --runs=3" ∧
        ∃ job ∈ phase.jobs, job.host.id = "n2" ∧ ∀ other ∈ phase.jobs, other.host.id = "n2" → other = job := by
  have hsample : ∃ plan phase, make (ledConfig (some "./lead")) sampleRequest (.ok sampleNodes) "" = .ok plan ∧
      plan.phases = [phase] ∧ phase.jobClass = .experiment "bench" ∧
      phase.jobs.map (·.command) =
        ["/opt/bench --hostname=n2 --host_id=1 --remotes=n1,n3 --warm=true --runs=3",
          "/opt/bench --hostname=n3 --host_id=2 --remotes=n1,n2"] ∧
      "n2" ∈ (plan.roster.active sampleRequest.limit).map (·.id) ∧
      ∃ e, plan.config.experiments.get? "bench" = some e ∧ e.isLed "n2" = true ∧
        e.leaderText? = some " --warm=true --runs=3" :=
    ⟨_, _, rfl, rfl, rfl, by decide, by decide, _, rfl, rfl, rfl⟩
  obtain ⟨plan, phase, hplan, hphases, hclass, hcommands, hactive, e, he, hled, htext⟩ := hsample
  have hphase : phase ∈ plan.phases := by
    rw [hphases]
    exact List.mem_singleton_self phase
  obtain ⟨-, -, -, -, -, -, -, hone⟩ := leader_flags hplan hphase hclass
  exact ⟨plan, phase, hplan, hphase, hclass, hcommands, e, _, he, hled, htext, rfl, hone "n2" hactive (by decide)⟩

/-- **A leader without a command gets none of the leader's arguments**, though it is configured as the leader, active
and not skipped. -/
theorem lone_leader :
    ∃ plan phase, make (ledConfig none) sampleRequest (.ok sampleNodes) "" = .ok plan ∧
      plan.phases = [phase] ∧ phase.jobClass = .experiment "bench" ∧
      "n2" ∈ (plan.roster.active sampleRequest.limit).map (·.id) ∧ "n2" ∉ sampleRequest.skip ∧
      (∃ e, plan.config.experiments.get? "bench" = some e ∧ e.leader = some "n2" ∧
        e.leaderText? = some " --warm=true --runs=3") ∧
      phase.jobs.map (fun job => (job.host.id, job.command)) =
        [("n2", "/opt/bench --hostname=n2 --host_id=1 --remotes=n1,n3"),
          ("n3", "/opt/bench --hostname=n3 --host_id=2 --remotes=n1,n2")] :=
  ⟨_, _, rfl, rfl, rfl, by decide, by decide, ⟨_, rfl, rfl, rfl⟩, by decide⟩

end Plan

end Fleet
