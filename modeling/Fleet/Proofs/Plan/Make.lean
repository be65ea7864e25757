import Fleet.Proofs.Launch
import Fleet.Proofs.Plan.Experiment

/-!
# What a plan is made of

`Made` names everything that `make` computes on its way to a plan, and a plan comes about in no other way
(`made_of_make`, `make_of_made`).  The phases in front of the experiment's are `Ordinary`, so a phase of an
experiment's class is the one that `experimentPhase` gives for the active hosts.
-/

namespace Fleet.Plan

variable {c : Config} {r : Request} {logbook : Logbook} {hosts : List Host}

/-! ### the phases in front of the experiment's -/

def Ordinary (phases : List Phase) : Prop := ∀ phase ∈ phases, ∀ name, phase.jobClass ≠ .experiment name

theorem ordinary_nil : Ordinary [] := fun _ h => absurd h (by simp)

theorem ordinary_singleton {phase : Phase} (h : ∀ name, phase.jobClass ≠ .experiment name) :
    Ordinary [phase] := by
  intro x hx
  rw [List.mem_singleton.1 hx]
  exact h

theorem Ordinary.append {xs ys : List Phase} (hx : Ordinary xs) (hy : Ordinary ys) : Ordinary (xs ++ ys) := by
  intro phase h
  rcases List.mem_append.1 h with h | h
  · exact hx phase h
  · exact hy phase h

theorem ordinary_planSync {phases : List Phase} (h : planSync c logbook r hosts = .ok phases) :
    Ordinary phases := by
  unfold planSync at h
  split at h
  · split at h
    · cases h
      exact ordinary_singleton fun name hc => by cases hc
    · cases h
  · cases h
    exact ordinary_nil

theorem ordinary_planData {stamp : String} {phases : List Phase}
    (h : planData c logbook r stamp hosts = .ok phases) : Ordinary phases := by
  unfold planData at h
  split at h
  · cases h
    exact ordinary_nil
  · split at h
    · cases h
    · cases h
    · cases h
      exact ordinary_singleton fun name hc => by cases hc

theorem ordinary_planCommand : Ordinary (planCommand logbook r hosts) := by
  unfold planCommand
  split
  · exact ordinary_singleton fun name hc => by cases hc
  · exact ordinary_nil

theorem ordinary_front {stamp : String} {sync data : List Phase} {active : List Host}
    (hsync : planSync c logbook r hosts = .ok sync) (hdata : planData c logbook r stamp active = .ok data) :
    Ordinary (sync ++ data ++ planCommand logbook r active) :=
  ((ordinary_planSync hsync).append (ordinary_planData hdata)).append ordinary_planCommand

/-! ### the experiment's phase -/

/-- What planning the experiment comes to: the phase of a launch of the experiment, and what is told about it. -/
theorem launch_of_planExperiment {phases : List Phase} {notices : List Notice} {phase : Phase}
    (h : planExperiment c logbook r hosts = .ok (phases, notices)) (hphase : phase ∈ phases) :
    ∃ name l, r.experiment = some name ∧ Launch.resolve c name r.options = .ok l ∧
      phase = experimentPhase l logbook hosts r.skip ∧ notices = Launch.notices c name ++ leaderNotices l phase := by
  unfold planExperiment at h
  split at h
  · rename_i name hname _
    split at h
    · rename_i l hl
      cases h
      obtain rfl := List.mem_singleton.1 hphase
      exact ⟨name, l, hname, hl, rfl, rfl⟩
    · cases h
  · cases h
    exact absurd hphase (by simp)

theorem mem_planExperiment {phases : List Phase} {notices : List Notice} {phase : Phase}
    (h : planExperiment c logbook r hosts = .ok (phases, notices)) (hphase : phase ∈ phases) :
    ∃ name l, r.experiment = some name ∧ Launch.resolve c name r.options = .ok l ∧
      phase = experimentPhase l logbook hosts r.skip := by
  obtain ⟨name, l, hname, hl, heq, -⟩ := launch_of_planExperiment h hphase
  exact ⟨name, l, hname, hl, heq⟩

/-! ### the whole plan -/

def book (plan : Plan) : Logbook := ⟨plan.config.common.logDirectory, plan.testbed⟩

/-- What the parts of a plan are computed from. -/
structure Made (c : Config) (r : Request) (nodeText : Except SystemFault String) (stamp text : String)
    (entries : List NodeEntry) (sync data experiment : List Phase) (plan : Plan) : Prop where
  text_eq : nodeText = .ok text
  entries_eq : NodeFile.parse r.nodeFile text = .ok entries
  roster_eq : Roster.resolve entries r.offline (Domains.builtin.merge c.domains) = .ok plan.roster
  config_eq : resolveConfig c r = .ok plan.config
  testbed_eq : plan.testbed = testbedLabel r.nodeFile
  sync_eq : planSync plan.config plan.book r plan.roster.hosts = .ok sync
  data_eq : planData plan.config plan.book r stamp (plan.roster.active r.limit) = .ok data
  experiment_eq :
    planExperiment plan.config plan.book r (plan.roster.active r.limit) = .ok (experiment, plan.notices)
  phases_eq :
    plan.phases = sync ++ data ++ planCommand plan.book r (plan.roster.active r.limit) ++ experiment

variable {nodeText : Except SystemFault String} {stamp : String} {plan : Plan}

theorem made_of_make (h : make c r nodeText stamp = .ok plan) :
    ∃ text entries sync data experiment, Made c r nodeText stamp text entries sync data experiment plan := by
  unfold make at h
  obtain ⟨text, htext, h⟩ := bind_eq_ok.1 h
  obtain ⟨entries, hentries, h⟩ := bind_eq_ok.1 h
  obtain ⟨roster, hroster, h⟩ := bind_eq_ok.1 h
  obtain ⟨resolved, hconfig, h⟩ := bind_eq_ok.1 h
  obtain ⟨sync, hsync, h⟩ := bind_eq_ok.1 h
  obtain ⟨data, hdata, h⟩ := bind_eq_ok.1 h
  obtain ⟨⟨experiment, notices⟩, hexperiment, h⟩ := bind_eq_ok.1 h
  cases h
  have htext : nodeText = .ok text := by
    cases nodeText with
    | error fault => cases htext
    | ok t => cases htext; rfl
  exact ⟨text, entries, sync, data, experiment, htext, hentries, hroster, hconfig, rfl, hsync, hdata,
    hexperiment, rfl⟩

theorem make_of_made {text : String} {entries : List NodeEntry} {sync data experiment : List Phase}
    (made : Made c r nodeText stamp text entries sync data experiment plan) : make c r nodeText stamp = .ok plan := by
  obtain ⟨config, testbed, roster, phases, notices⟩ := plan
  obtain ⟨rfl, hentries, hroster, hconfig, htestbed, hsync, hdata, hexperiment, hphases⟩ := made
  simp only [book] at htestbed hsync hdata hexperiment hphases
  subst htestbed hphases
  simp only [make, bind, Except.bind, Except.mapError, hentries, hroster, hconfig, hsync, hdata, hexperiment]
  rfl

/-- A phase of an experiment's class is that of the experiment's launch on the active hosts, and what is told is about
this launch. -/
theorem launch_of_mem (h : make c r nodeText stamp = .ok plan) {phase : Phase} {name : String}
    (hphase : phase ∈ plan.phases) (hclass : phase.jobClass = .experiment name) :
    ∃ l, Launch.resolve plan.config name r.options = .ok l ∧
      phase = experimentPhase l plan.book (plan.roster.active r.limit) r.skip ∧
      plan.notices = Launch.notices plan.config name ++ leaderNotices l phase := by
  obtain ⟨text, entries, sync, data, experiment, made⟩ := made_of_make h
  rw [made.phases_eq] at hphase
  rcases List.mem_append.1 hphase with hphase | hphase
  · exact absurd hclass (ordinary_front made.sync_eq made.data_eq phase hphase name)
  · obtain ⟨name', l, -, hl, rfl, hnotices⟩ := launch_of_planExperiment made.experiment_eq hphase
    rw [experimentPhase_jobClass, Launch.resolve_experiment hl] at hclass
    cases hclass
    exact ⟨l, hl, rfl, hnotices⟩

theorem experimentPhase_of_mem (h : make c r nodeText stamp = .ok plan) {phase : Phase} {name : String}
    (hphase : phase ∈ plan.phases) (hclass : phase.jobClass = .experiment name) :
    ∃ l, Launch.resolve plan.config name r.options = .ok l ∧
      phase = experimentPhase l plan.book (plan.roster.active r.limit) r.skip := by
  obtain ⟨l, hl, heq, -⟩ := launch_of_mem h hphase hclass
  exact ⟨l, hl, heq⟩

/-! ### a sample -/

/-- A configuration with one experiment, which has a leader. -/
def sampleConfig : Config where
  common := { access := ⟨"ssh", "ann"⟩, loginShell := "bash -l", logDirectory := ⟨"logs"⟩ }
  sync := none
  dataDirectory := none
  domains := .empty
  experiments := .ofList [("bench",
    { binDirectory := some "/opt", bin := some "bench", leader := some "n2", leaderCommand := some "./lead"
      leaderDelay := some 5, leaderPort := none, args := some .empty
      leaderArgs := Arguments.empty.set "warm" (.bool true) })]

/-- A request for the experiment, with one host skipped. -/
def sampleRequest : Request where
  nodeFile := ⟨"nodes.csv"⟩
  limit := none
  skip := ["n1"]
  offline := []
  sync := false
  command := none
  remoteDirectory := none
  experiment := some "bench"
  overrides := []
  options := ⟨none, none, false⟩

/-- The text of a node file that lists the skipped host twice. -/
def sampleNodes : String := "n1,a,m510\nn2,b,m510\n\nn3,c,r320\nn1,d,m510\n"

end Fleet.Plan
