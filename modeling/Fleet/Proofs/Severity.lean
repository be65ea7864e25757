import Mathlib.Data.List.Forall2
import Fleet.Proofs.FanOut.Telling
import Fleet.Proofs.Plan.Checks
import Fleet.Proofs.Rollout

/-!
# Which faults are fatal

Faults are fatal before anything is executed, and never afterwards.  All that planning can stop at is fatal: `Fatal`
goes through planning function by function, and a chain of steps has only the faults of its steps (`Fatal.bind`).  What
is executed fails for its own host alone: whatever the executor answers, a fatal fault included, the report of an
execution has no other fault than that its command has failed on its host (`Isolated`).
-/

namespace Fleet

variable {α β : Type}

/-! ### before dispatch -/

/-- A result that is a fatal fault, if it is one at all. -/
def Fatal (x : Except Fault α) : Prop := ∀ fault, x = .error fault → fault.isFatal = true

namespace Fatal

theorem ok (a : α) : Fatal (.ok a) := nofun

theorem error {fault : Fault} (h : fault.isFatal = true) : Fatal (.error fault : Except Fault α) := by
  rintro _ ⟨⟩
  exact h

theorem bind {x : Except Fault α} {f : α → Except Fault β} (hx : Fatal x) (hf : ∀ a, Fatal (f a)) :
    Fatal (x >>= f) := by
  cases x with
  | error fault => exact .error (hx fault rfl)
  | ok a => exact hf a

end Fatal

theorem NodeFile.fatal_readLines (path : Path) (number : Nat) (lines : List (List Char)) :
    Fatal (readLines path number lines) := by
  induction lines generalizing number with
  | nil => exact .ok []
  | cons line rest ih =>
    unfold readLines
    split
    · exact .error rfl
    · exact ih _
    · split
      · exact .ok _
      · rename_i fault hrest
        exact .error (ih _ fault hrest)

theorem Roster.fatal_addEntries (domains : Domains) (offline : List String) (r : Roster) (entries : List NodeEntry) :
    Fatal (addEntries domains offline r entries) := by
  induction entries generalizing r with
  | nil => exact .ok r
  | cons entry rest ih =>
    unfold addEntries
    split
    · exact ih r
    · unfold hostOf
      cases domains.get? entry.nodeType with
      | some suffix => exact ih _
      | none => exact .error rfl

theorem Arguments.fatal_override (a : Arguments) (raw : String) : Fatal (a.override raw) := by
  unfold override
  split
  · exact .error rfl
  · split
    · exact .error rfl
    · exact .ok _

theorem Arguments.fatal_overrideAll (a : Arguments) (raws : List String) : Fatal (a.overrideAll raws) := by
  induction raws generalizing a with
  | nil => exact .ok a
  | cons raw rest ih =>
    unfold overrideAll
    split
    · exact ih _
    · rename_i fault hraw
      exact .error (fatal_override a raw fault hraw)

namespace Config

theorem fatal_experiment (c : Config) (name : String) : Fatal (c.experiment name) := by
  unfold experiment
  split
  · exact .ok _
  · exact .error rfl

theorem fatal_withOverrides (c : Config) (name : String) (overrides : List String) :
    Fatal (c.withOverrides name overrides) := by
  unfold withOverrides
  split
  · rename_i fault hexperiment
    exact .error (fatal_experiment c name fault hexperiment)
  · split
    · exact .ok c
    · split
      · exact .ok _
      · rename_i fault hargs
        exact .error (Arguments.fatal_overrideAll _ _ fault hargs)

end Config

namespace Launch

theorem fatal_flags (experiment : String) (entries : List (Yaml.Value × Yaml.Value)) :
    Fatal (flags experiment entries) := by
  induction entries with
  | nil => exact .ok []
  | cons entry rest ih =>
    unfold flags
    split
    · exact .error rfl
    · split
      · exact .ok _
      · rename_i fault hrest
        exact .error (ih fault hrest)

theorem fatal_part (experiment name : String) (text : Option String) : Fatal (part experiment name text) := by
  cases text with
  | some text => exact .ok text
  | none => exact .error rfl

theorem fatal_resolve (c : Config) (name : String) (options : LaunchOptions) : Fatal (resolve c name options) :=
  (c.fatal_experiment name).bind fun _ =>
    (fatal_part _ _ _).bind fun _ => (fatal_part _ _ _).bind fun _ =>
      (fatal_flags _ _).bind fun _ => (fatal_flags _ _).bind fun _ => .ok _

end Launch

namespace Plan

theorem fatal_resolveConfig (c : Config) (r : Request) : Fatal (resolveConfig c r) := by
  unfold resolveConfig
  split
  · split
    · exact c.fatal_withOverrides _ _
    · exact .ok c
  · split
    · exact .error rfl
    · exact .ok c

theorem fatal_planSync (c : Config) (book : Logbook) (r : Request) (hosts : List Host) :
    Fatal (planSync c book r hosts) := by
  unfold planSync
  split
  · split
    · exact .ok _
    · exact .error rfl
  · exact .ok []

theorem fatal_planData (c : Config) (book : Logbook) (r : Request) (stamp : String) (hosts : List Host) :
    Fatal (planData c book r stamp hosts) := by
  unfold planData
  split
  · exact .ok []
  · split
    · exact .error rfl
    · exact .error rfl
    · exact .ok _

theorem fatal_planExperiment (c : Config) (book : Logbook) (r : Request) (hosts : List Host) :
    Fatal (planExperiment c book r hosts) := by
  unfold planExperiment
  split
  · rename_i name _ _
    split
    · exact .ok _
    · rename_i fault hlaunch
      exact .error (Launch.fatal_resolve c name r.options fault hlaunch)
  · exact .ok _

/-- **All faults of planning are fatal.** -/
theorem fatal_make (c : Config) (r : Request) (nodeText : Except SystemFault String) (stamp : String) :
    Fatal (make c r nodeText stamp) := by
  have htext : Fatal (nodeText.mapError .system) := by
    cases nodeText with
    | error reason => exact .error rfl
    | ok text => exact .ok text
  refine htext.bind fun text => ?_
  refine (NodeFile.fatal_readLines _ _ _).bind fun entries => ?_
  refine (Roster.fatal_addEntries _ _ _ _).bind fun roster => ?_
  refine (fatal_resolveConfig c r).bind fun resolved => ?_
  refine (fatal_planSync _ _ _ _).bind fun syncPhases => ?_
  refine (fatal_planData _ _ _ _ _).bind fun dataPhases => ?_
  exact (fatal_planExperiment _ _ _ _).bind fun _ => .ok _

end Plan

/-! ### after dispatch -/

/-- The host that a fault tells of, if it tells of what happened on a host. -/
def Fault.host? : Fault → Option String
  | .commandFailed host _ | .syncFailed host => some host
  | _ => none

theorem isFatal_failureOf (job : Job) (exitCode : Option Int) :
    (FanOut.failureOf job exitCode).isFatal = false := by
  unfold FanOut.failureOf
  split <;> rfl

theorem host?_failureOf (job : Job) (exitCode : Option Int) :
    (FanOut.failureOf job exitCode).host? = some job.host.id := by
  unfold FanOut.failureOf
  split <;> rfl

/-- A report of an execution that is about nothing but its host.  A failure is a fault that is not fatal and tells of
this host. -/
structure Isolated (report : JobReport) (job : Job) (ending : FanOut.Ending) : Prop where
  host : report.host = job.host
  succeeded : report.succeeded = ending.isSuccess
  faultless : report.succeeded = true → report.fault? = none
  faulty : report.succeeded = false → ∃ fault, report.fault? = some fault ∧ fault.isFatal = false ∧
    fault.host? = some job.host.id

theorem isolated_ofJob (job : Job) (ending : FanOut.Ending) (launched finished : Nat) :
    Isolated (.ofJob job ending.state launched finished) job ending where
  host := rfl
  succeeded := ending.succeeded_ofJob job launched finished
  faultless h := by
    have hstate : ending.state = .succeeded := of_decide_eq_true h
    simp [JobReport.fault?, JobReport.ofJob, hstate, JobState.fault?]
  faulty h := by
    have hterminal := ending.isTerminal_state
    obtain ⟨exitCode, hstate⟩ : ∃ exitCode, ending.state = .failed exitCode := by
      cases hstate : ending.state with
      | pending | running =>
        rw [hstate] at hterminal
        cases hterminal
      | succeeded => exact absurd hstate (of_decide_eq_false h)
      | failed exitCode => exact ⟨exitCode, rfl⟩
    refine ⟨FanOut.failureOf job exitCode, ?_, isFatal_failureOf job exitCode, host?_failureOf job exitCode⟩
    rw [← FanOut.fault?_failed, ← hstate]
    rfl

namespace FanOut

/-- At the end of a phase its reports are those of its executions, in their order, and each is isolated. -/
theorem Ledger.closed_isolated {p : Phase} {s : State} (h : Ledger p s) (hclosed : s.stage = .closed) :
    List.Forall₂ (fun report x => ∃ ending, endings x.1 s.events = [ending] ∧ Isolated report x.2 ending)
      (s.report p).all (tasks p) := by
  refine (List.rel_append (h.closed_leaderTask hclosed) (h.closed_jobTasks hclosed)).imp ?_
  rintro report ⟨slot, job⟩ ⟨ending, launched, finished, hendings, rfl⟩
  exact ⟨ending, hendings, isolated_ofJob job ending launched finished⟩

end FanOut

open FanOut

/-- **Faults are fatal before dispatch, and never afterwards.**  A fault that a rollout ends with is fatal; it is that
of planning, whatever would run the commands, the machine has been given nothing to execute and its files are as they
were.  A rollout that ends with a report has had each job of its plan executed once, and nothing else.  When the phases
of a plan have been executed, each execution has its report, at its place, and each report is isolated: whatever the
executor answered, and where a thread has died, a failure is a fault that is not fatal and tells of the execution's own
host. -/
theorem fatal_only_before_dispatch :
    (∀ c r nodeText stamp fault, Plan.make c r nodeText stamp = .error fault → fault.isFatal = true) ∧
    (∀ s c r d rollout fault, Rollout.run s c r d = some rollout → rollout.result = .error fault →
      fault.isFatal = true ∧ Rollout.plan c r s.stamp d = .error fault ∧
      rollout.machine.executed = [] ∧ rollout.machine.directory = d ∧
      ∀ other : Setup, other.stamp = s.stamp → Rollout.run other c r d = some rollout) ∧
    (∀ s c r d fault, Rollout.plan c r s.stamp d = .error fault →
      ∃ rollout, Rollout.run s c r d = some rollout ∧ rollout.result = .error fault) ∧
    (∀ s c r d rollout report, Rollout.run s c r d = some rollout → rollout.result = .ok report →
      ∃ plan, Rollout.plan c r s.stamp d = .ok plan ∧
        rollout.machine.executed.Perm (plan.phases.flatMap fun p => (tasks p).map (·.2))) ∧
    ∀ phases (r : Run), Run.Reaches (.initial phases) r → r.isOver = true → ∀ testbed,
      (r.report testbed).phases.length = phases.length ∧
      ∀ k p, phases[k]? = some p → ∃ report, (r.report testbed).phases[k]? = some report ∧
        report.jobs.length = p.jobs.length ∧
        List.Forall₂ (fun x y => ∃ ending, r.endings (k, y.1) = [ending] ∧ Isolated x y.2 ending)
          report.all (tasks p) := by
  refine ⟨fun c r nodeText stamp => Plan.fatal_make c r nodeText stamp, ?refused, ?refuses, ?executed, ?reports⟩
  case refused =>
    intro s c r d rollout fault hrun hresult
    obtain ⟨hplan, rfl⟩ := Rollout.run_refused hrun hresult
    refine ⟨Plan.fatal_make _ _ _ _ fault hplan, hplan, rfl, rfl, fun other hstamp => ?_⟩
    exact Rollout.run_of_plan_error (hstamp ▸ hplan)
  case refuses =>
    intro s c r d fault hplan
    exact ⟨_, Rollout.run_of_plan_error hplan, rfl⟩
  case executed =>
    intro s c r d rollout report hrun hresult
    obtain ⟨plan, hplan, hofPlan⟩ := Rollout.run_reported hrun hresult
    exact ⟨plan, hplan, Rollout.executed_perm hofPlan⟩
  case reports =>
    intro phases r hreaches hover testbed
    have hordered := Run.InOrder.of_reaches hreaches
    obtain ⟨hbegun, hphases⟩ := hordered.finished hover
    refine ⟨by simp [Run.report, ← hphases], fun k p hp => ?_⟩
    have hk : k < r.past.length := by
      have hlt := (List.getElem?_eq_some_iff.mp hp).1
      rwa [← hphases, List.length_map] at hlt
    obtain ⟨x, hx, hphase, hclosed, hledger⟩ := hordered.past_of_lt hk
    obtain rfl : x.1 = p := Option.some.inj (hphase.symm.trans hp)
    refine ⟨x.2.report x.1, ?_, hledger.closed_length hclosed, ?_⟩
    · rw [Run.report, List.getElem?_map, ← hbegun, hx]
      rfl
    · simpa only [Run.endings, r.eventsOf_eq hx] using hledger.closed_isolated hclosed

/-- A setup in which no command can be started. -/
def sampleSetup : Setup := ⟨.ofRunner fun _ _ _ => .error .notFound, fun _ _ => none, id, "", fun _ => ""⟩

def sampleDirectory : Directory := ⟨⟨[("nodes.csv", .file (Text.bytes Plan.sampleNodes) false)]⟩, []⟩

/-- A node file that is not there ends the sample rollout, and an experiment that is not configured its planning.  With
the node file all three commands of the plan are executed, though none can be started.  The leader of the sample phases
could not be executed, which the executor answers with a fatal fault, and a thread has died; what is reported of them is
not fatal. -/
theorem fatal_only_before_dispatch_sample :
    (∃ rollout fault, Rollout.run sampleSetup Plan.sampleConfig Plan.sampleRequest ⟨⟨[]⟩, []⟩ = some rollout ∧
      rollout.result = .error fault ∧ fault.isFatal = true ∧ rollout.machine.executed = []) ∧
    (∃ rollout, ∃ plan : Plan,
      Rollout.run sampleSetup Plan.sampleConfig Plan.sampleRequest sampleDirectory = some rollout ∧
      rollout.machine.executed.length = 3 ∧
      rollout.machine.executed.Perm (plan.phases.flatMap fun p => (tasks p).map (·.2))) ∧
    (Fault.missingExperimentConfig "cold" "experiments.cold").isFatal = true ∧
    ∃ r, Run.Reaches (.initial samplePhases) r ∧ r.isOver = true ∧
      r.endings (0, .leader) = [.answered (.error (.system .notFound))] ∧ r.endings (0, .job 0) = [.died] ∧
      ∃ leader first rest, ((r.report "lab").phases.head?.map PhaseReport.all) = some (leader :: first :: rest) ∧
        Isolated leader (sampleJob "a") (.answered (.error (.system .notFound))) ∧
        Isolated first (sampleJob "b") .died := by
  obtain ⟨hmake, hrefused, hrefuses, hexecuted, hreports⟩ := fatal_only_before_dispatch
  refine ⟨?_, ?_, ?_, ?_⟩
  · obtain ⟨rollout, hrun, hresult⟩ := hrefuses sampleSetup Plan.sampleConfig Plan.sampleRequest ⟨⟨[]⟩, []⟩ _ rfl
    obtain ⟨hfatal, -, hnothing, -⟩ := hrefused _ _ _ _ rollout _ hrun hresult
    exact ⟨rollout, _, hrun, hresult, hfatal, hnothing⟩
  · have hchecked : (Rollout.run sampleSetup Plan.sampleConfig Plan.sampleRequest sampleDirectory).any (fun r =>
        r.result.isOk && r.machine.executed.length == 3) = true := by decide +kernel
    obtain ⟨rollout, hrun, hrollout⟩ := (Option.any_eq_true _ _).mp hchecked
    obtain ⟨hok, hlength⟩ := Bool.and_eq_true_iff.mp hrollout
    cases hresult : rollout.result with
    | error fault =>
      rw [hresult] at hok
      cases hok
    | ok report =>
      obtain ⟨plan, -, hperm⟩ := hexecuted _ _ _ _ rollout report hrun hresult
      exact ⟨rollout, plan, hrun, eq_of_beq hlength, hperm⟩
  · exact hmake Plan.sampleConfig { Plan.sampleRequest with experiment := some "cold" } (.ok Plan.sampleNodes) "" _ rfl
  · have hcarried : ∃ r, (sampleExecutor.carryOut 40 (.initial samplePhases) ()).1 = r ∧ r.isOver = true ∧
        r.endings (0, .leader) = [.answered (.error (.system .notFound))] ∧ r.endings (0, .job 0) = [.died] :=
      ⟨_, rfl, rfl, rfl, rfl⟩
    obtain ⟨r, hr, hover, hleader, hfirst⟩ := hcarried
    have hreaches := Executor.reaches_of_carryOut hr
    obtain ⟨report, hreport, -, hall⟩ := (hreports samplePhases r hreaches hover "lab").2 0 samplePhase rfl
    have htasks : tasks samplePhase = (.leader, sampleJob "a") :: (.job 0, sampleJob "b") ::
        [(.job 1, sampleJob "a"), (.job 2, sampleJob "a")] := rfl
    rw [htasks] at hall
    obtain ⟨leader, others, ⟨ending, hending, hisolated⟩, hothers, hsplit⟩ := List.forall₂_cons_right_iff.mp hall
    obtain ⟨first, rest, ⟨ending', hending', hisolated'⟩, -, rfl⟩ := List.forall₂_cons_right_iff.mp hothers
    obtain rfl := List.singleton_inj.mp (hleader.symm.trans hending)
    obtain rfl := List.singleton_inj.mp (hfirst.symm.trans hending')
    refine ⟨r, hreaches, hover, hleader, hfirst, leader, first, rest, ?_, hisolated, hisolated'⟩
    rw [← hsplit, List.head?_eq_getElem?, hreport]
    rfl

end Fleet
