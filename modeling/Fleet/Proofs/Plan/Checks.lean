import Fleet.Proofs.Override
import Fleet.Proofs.Plan.Contacts

/-!
# When planning succeeds

Planning goes through a fixed list of checks, each of which is about the configuration, the request and the node file
as they are given.  A plan is made exactly if none of them finds anything, and else the first finding is the fault
(`make_checks`).  A limit, the skipped hosts and a command of the user's are not looked at.
-/

namespace Fleet.Plan

variable {c : Config} {r : Request} {nodeText : Except SystemFault String} {stamp : String} {plan : Plan}

/-! ### the checks -/

/-- The node file can be read and is well formed. -/
def nodeFileFault? (r : Request) : Except SystemFault String → Option Fault
  | .error reason => some (.system reason)
  | .ok text => fault? (NodeFile.parse r.nodeFile text)

/-- The type of each node that is not offline has a domain. -/
def nodeTypeFault? (c : Config) (r : Request) : Except SystemFault String → Option Fault
  | .error _ => none
  | .ok text => (Roster.stray? (suffix? c) (online r text)).map fun entry => .unknownNodeType entry.id entry.nodeType

def strayFault? (r : Request) : Option Fault :=
  if r.overrides ≠ [] ∧ r.experiment = none then some (.invalidRequest .overridesWithoutExperiment) else none

/-- An experiment that is run or overridden is configured, and its overrides are accepted. -/
def overrideFault? (c : Config) (r : Request) : Option Fault :=
  match r.experiment with
  | none => none
  | some name => if r.remoteDirectory = none ∨ r.overrides ≠ [] then c.refusal? name r.overrides else none

def syncFault? (c : Config) (r : Request) : Option Fault :=
  if r.sync = true ∧ c.sync = none then some (.invalidRequest .syncWithoutSection) else none

/-- There is an experiment that fetched files belong to. -/
def dataNameFault? (r : Request) : Option Fault :=
  if r.remoteDirectory ≠ none ∧ r.experiment = none then some (.invalidRequest .dataWithoutExperiment) else none

/-- The place of fetched files is configured. -/
def dataSectionFault? (c : Config) (r : Request) : Option Fault :=
  if r.remoteDirectory ≠ none ∧ c.dataDirectory = none then some (.invalidRequest .dataWithoutSection) else none

/-- An experiment that is run has all that it needs, with its overrides. -/
def launchFault? (c : Config) (r : Request) : Option Fault :=
  match r.experiment, r.remoteDirectory with
  | some name, none =>
    match c.withOverrides name r.overrides with
    | .ok resolved => fault? (Launch.resolve resolved name r.options)
    | .error _ => none
  | _, _ => none

/-- What the checks find, in their order. -/
def checks (c : Config) (r : Request) (nodeText : Except SystemFault String) : List (Option Fault) :=
  [nodeFileFault? r nodeText, nodeTypeFault? c r nodeText, strayFault? r, overrideFault? c r, syncFault? c r,
    dataNameFault? r, dataSectionFault? c r, launchFault? c r]

/-! ### step by step -/

theorem fault?_roster {text : String} {entries : List NodeEntry} (h : NodeFile.parse r.nodeFile text = .ok entries) :
    fault? (Roster.resolve entries r.offline (Domains.builtin.merge c.domains)) = nodeTypeFault? c r (.ok text) := by
  have hsuffix : (Domains.builtin.merge c.domains).get? = suffix? c :=
    funext fun nodeType => Table.get?_merge _ _ nodeType
  rw [Roster.fault?_resolve, hsuffix, ← NodeFile.listed_of_parse h]
  rfl

theorem fault?_resolveConfig (c : Config) (r : Request) :
    fault? (resolveConfig c r) = (strayFault? r).or (overrideFault? c r) := by
  unfold resolveConfig strayFault? overrideFault?
  cases r.experiment with
  | none =>
    by_cases h : r.overrides = [] <;> simp [h]
  | some name =>
    by_cases hdata : r.remoteDirectory = none <;> by_cases h : r.overrides = [] <;>
      simp [hdata, h, Config.fault?_withOverrides]

theorem fault?_planSync (logbook : Logbook) (hosts : List Host) :
    fault? (planSync c logbook r hosts) = syncFault? c r := by
  unfold planSync syncFault?
  cases r.sync <;> cases c.sync <;> rfl

theorem fault?_planData (logbook : Logbook) (stamp : String) (hosts : List Host) :
    fault? (planData c logbook r stamp hosts) = (dataNameFault? r).or (dataSectionFault? c r) := by
  unfold planData dataNameFault? dataSectionFault?
  cases r.remoteDirectory <;> cases r.experiment <;> cases c.dataDirectory <;> rfl

/-! ### the configuration in effect -/

/-- The configuration in effect: the given one without overrides, and else the one in which the arguments of the
request's experiment are overridden. -/
structure Effective (c : Config) (r : Request) (resolved : Config) : Prop where
  unchanged : r.overrides = [] → resolved = c
  changed : r.overrides ≠ [] → ∃ name, r.experiment = some name ∧ c.Overridden name r.overrides resolved

theorem effective_of_resolveConfig {resolved : Config} (h : resolveConfig c r = .ok resolved) :
    Effective c r resolved := by
  unfold resolveConfig at h
  split at h
  · rename_i name hname
    split at h
    · have hoverridden := Config.overridden_of_withOverrides h
      exact ⟨hoverridden.unchanged, fun _ => ⟨name, hname, hoverridden⟩⟩
    · rename_i hnone
      cases h
      exact ⟨fun _ => rfl, fun hsome => absurd hsome (by simp_all)⟩
  · split at h
    · cases h
    · rename_i hnone
      cases h
      exact ⟨fun _ => rfl, fun hsome => absurd hsome (by simpa using hnone)⟩

theorem Effective.sections {resolved : Config} (h : Effective c r resolved) :
    resolved.sync = c.sync ∧ resolved.dataDirectory = c.dataDirectory := by
  by_cases hnone : r.overrides = []
  · rw [h.unchanged hnone]
    exact ⟨rfl, rfl⟩
  · obtain ⟨name, -, hoverridden⟩ := h.changed hnone
    obtain ⟨e, args, -, -, rfl⟩ := hoverridden.changed hnone
    exact ⟨rfl, rfl⟩

theorem Effective.experiment {resolved : Config} (h : Effective c r resolved) {name : String} {e : Experiment}
    (he : resolved.experiments.get? name = some e) : ∃ args, c.experiments.get? name = some { e with args } := by
  by_cases hnone : r.overrides = []
  · rw [h.unchanged hnone] at he
    exact ⟨e.args, he⟩
  · obtain ⟨overridden, -, hoverridden⟩ := h.changed hnone
    obtain ⟨e', args, he', -, rfl⟩ := hoverridden.changed hnone
    by_cases hname : name = overridden
    · subst hname
      rw [Table.get?_insert, if_pos rfl] at he
      cases he
      exact ⟨e'.args, he'⟩
    · rw [Table.get?_insert, if_neg hname] at he
      exact ⟨e.args, he⟩

theorem Effective.common {resolved : Config} (h : Effective c r resolved) : resolved.common = c.common := by
  by_cases hnone : r.overrides = []
  · rw [h.unchanged hnone]
  · obtain ⟨name, -, hoverridden⟩ := h.changed hnone
    obtain ⟨e, args, -, -, rfl⟩ := hoverridden.changed hnone
    rfl

theorem fault?_planExperiment {resolved : Config} (h : resolveConfig c r = .ok resolved) (logbook : Logbook)
    (hosts : List Host) : fault? (planExperiment resolved logbook r hosts) = launchFault? c r := by
  unfold planExperiment launchFault?
  cases hname : r.experiment with
  | none => rfl
  | some name =>
    cases hdata : r.remoteDirectory with
    | some remoteDirectory => rfl
    | none =>
      have hoverrides : c.withOverrides name r.overrides = .ok resolved := by simpa [resolveConfig, hname, hdata] using h
      simp only [hoverrides]
      cases Launch.resolve resolved name r.options <;> rfl

/-! ### the whole plan -/

section Chains

variable {α β : Type} {x : Except Fault α} {f : α → Except Fault β} {later : List (Option Fault)}

theorem fault?_check {check : Option Fault} (hx : fault? x = check)
    (hf : ∀ a, x = .ok a → fault? (f a) = later.findSome? id) : fault? (x >>= f) = (check :: later).findSome? id := by
  rw [fault?_bind hf, hx]
  cases check <;> rfl

theorem fault?_checks {first second : Option Fault} (hx : fault? x = first.or second)
    (hf : ∀ a, x = .ok a → fault? (f a) = later.findSome? id) :
    fault? (x >>= f) = (first :: second :: later).findSome? id := by
  rw [fault?_bind hf, hx]
  cases first <;> cases second <;> rfl

end Chains

theorem fault?_make (c : Config) (r : Request) (nodeText : Except SystemFault String) (stamp : String) :
    fault? (make c r nodeText stamp) = (checks c r nodeText).findSome? id := by
  cases nodeText with
  | error reason => rfl
  | ok text =>
    change fault? (NodeFile.parse r.nodeFile text >>= _) = _
    refine fault?_check rfl fun entries hentries => ?_
    refine fault?_check (fault?_roster hentries) fun roster _ => ?_
    refine fault?_checks (fault?_resolveConfig c r) fun resolved hresolved => ?_
    obtain ⟨hsync, hdata⟩ := (effective_of_resolveConfig hresolved).sections
    refine fault?_check ?sends fun syncPhases _ => ?_
    case sends =>
      rw [fault?_planSync, syncFault?, hsync]
      rfl
    refine fault?_checks ?fetches fun dataPhases _ => ?_
    case fetches =>
      rw [fault?_planData, dataSectionFault?, hdata]
      rfl
    exact fault?_check (fault?_planExperiment hresolved _ _) fun _ _ => rfl

/-- **When planning succeeds.**  A plan is made exactly if no check finds anything, and otherwise the fault is the
first finding.  The configuration of the plan is the given one, up to the overridden arguments of the one experiment.
The limit, the skipped hosts, the command of the user's and the time make no difference to the fault. -/
theorem make_checks (c : Config) (r : Request) (nodeText : Except SystemFault String) (stamp : String) :
    ((∃ plan, make c r nodeText stamp = .ok plan) ↔ ∀ finding ∈ checks c r nodeText, finding = none) ∧
    (∀ fault, make c r nodeText stamp = .error fault ↔ (checks c r nodeText).findSome? id = some fault) ∧
    (∀ plan, make c r nodeText stamp = .ok plan → Effective c r plan.config) ∧
    ∀ limit skip command stamp',
      fault? (make c { r with limit, skip, command } nodeText stamp') = fault? (make c r nodeText stamp) := by
  refine ⟨?succeeds, fun fault => ?fails, fun plan hplan => ?config, fun limit skip command stamp' => ?same⟩
  case succeeds =>
    rw [← fault?_eq_none, fault?_make, List.findSome?_eq_none_iff]
    rfl
  case fails => rw [← fault?_eq_some, fault?_make]
  case config =>
    obtain ⟨text, entries, sync, data, experiment, made⟩ := made_of_make hplan
    exact effective_of_resolveConfig made.config_eq
  case same =>
    rw [fault?_make, fault?_make]
    rfl

/-- An experiment that is not configured comes before files that cannot be sent, but where files are fetched it need
not be configured; an override of a boolean argument has to be a boolean. -/
theorem make_checks_sample :
    let r := { sampleRequest with sync := true, experiment := some "cold" }
    make sampleConfig r (.ok sampleNodes) "" = .error (.missingExperimentConfig "cold" "experiments.cold") ∧
    make sampleConfig { r with remoteDirectory := some "/data" } (.ok sampleNodes) "" =
      .error (.invalidRequest .syncWithoutSection) ∧
    make sampleConfig { r with overrides := ["runs=3"], experiment := none } (.ok sampleNodes) "" =
      .error (.invalidRequest .overridesWithoutExperiment) ∧
    ∃ plan, make sampleConfig { sampleRequest with overrides := ["runs=3"] } (.ok sampleNodes) "" = .ok plan ∧
      Effective sampleConfig { sampleRequest with overrides := ["runs=3"] } plan.config := by
  refine ⟨((make_checks ..).2.1 _).mpr rfl, ((make_checks ..).2.1 _).mpr rfl, ((make_checks ..).2.1 _).mpr rfl, ?_⟩
  have hplan : ∃ plan, make sampleConfig { sampleRequest with overrides := ["runs=3"] } (.ok sampleNodes) "" = .ok plan :=
    ⟨_, rfl⟩
  obtain ⟨plan, hplan⟩ := hplan
  exact ⟨plan, hplan, (make_checks ..).2.2.1 plan hplan⟩

end Fleet.Plan
