import Fleet.CommandLine.Answer
import Fleet.Proofs.Fallible
import Fleet.Proofs.FanOut.Telling
import Fleet.Proofs.Rollout
import Fleet.Proofs.Text.Json

/-!
# Exit codes and documents

What a command line may end with, however its commands are executed: a fault of loading or planning, or a plan with a
run that moves lead to and that is over (`CommandLine.Ends`).  So the exit code is decided before anything is executed.
On demand the output is one document, which is read back here: with a report its numbers and its entries are those of
the run (`Reports`), with a fault it has the message (`Refuses`).  The document is taken apart by the names of its
members only, so nothing hangs on their order.
-/

namespace Fleet

open FanOut Text

/-! ### reading a document -/

namespace Text.JsonValue

def member? (v : JsonValue) (name : String) : Option JsonValue :=
  match v with
  | .object members => members.lookup name
  | _ => none

def items : JsonValue → List JsonValue
  | .list items => items
  | _ => []

/-- The entry of the leader of a phase, if there is one. -/
def leaderEntries (phase : JsonValue) : List JsonValue :=
  match phase.member? "leader" with
  | none | some .null => []
  | some entry => [entry]

def unitEntries (phase : JsonValue) : List JsonValue := ((phase.member? "units").map items).getD []

def phases (report : JsonValue) : List JsonValue := ((report.member? "phases").map items).getD []

def entries (report : JsonValue) : List JsonValue :=
  report.phases.flatMap fun phase => phase.leaderEntries ++ phase.unitEntries

/-- Whether an entry has the status of a failure. -/
def isFailed (entry : JsonValue) : Bool :=
  match entry.member? "status" with
  | some (.text label) => label == "failed"
  | _ => false

end Text.JsonValue

/-- An entry that tells of a job how its execution ended. -/
structure Tells (entry : JsonValue) (job : Job) (ending : Ending) : Prop where
  host : entry.member? "host_id" = some (.text job.host.id)
  hostname : entry.member? "hostname" = some (.text job.host.hostname)
  log : entry.member? "log" = some (.text job.log.text)
  /-- there are no other statuses -/
  status : entry.member? "status" = some (.text "succeeded") ∨ entry.member? "status" = some (.text "failed")
  succeeded : entry.member? "status" = some (.text "succeeded") ↔ ending.state = .succeeded
  codeless : entry.member? "exit_code" = some .null ↔ ending.state = .succeeded ∨ ending.state = .failed none
  coded : ∀ code, ending.state = .failed (some code) → entry.member? "exit_code" = some (.number code)

/-- An entry that tells of a task of a phase how it ended, once. -/
def TellsOf (r : Run) (k : Nat) (entry : JsonValue) (x : Slot × Job) : Prop :=
  ∃ ending, r.endings (k, x.1) = [ending] ∧ Tells entry x.2 ending

/-- The part of a report about a phase: its entries are those of the leader's command and of the jobs, in their order.
-/
structure ReportsPhase (r : Run) (phase : JsonValue) (x : Phase × Nat) : Prop where
  jobClass : phase.member? "class" = some (.text x.1.jobClass.text)
  skipped : phase.member? "skipped" = some (.list (x.1.skipped.map .text))
  leader : List.Forall₂ (TellsOf r x.2) phase.leaderEntries (x.1.leader.toList.map fun step => (.leader, step.job))
  units : List.Forall₂ (TellsOf r x.2) phase.unitEntries (x.1.jobs.zipIdx.map fun y => (.job y.2, y.1))

/-- A document with the report of a plan that has been carried out. -/
structure Reports (document : JsonValue) (plan : Plan) (r : Run) : Prop where
  ok : document.member? "ok" = some (.bool true)
  report : ∃ report, document.member? "report" = some report ∧
    report.member? "testbed" = some (.text plan.testbed) ∧
    report.member? "failed" = some (.number (report.entries.countP JsonValue.isFailed)) ∧
    List.Forall₂ (ReportsPhase r) report.phases plan.phases.zipIdx

/-- A document with a fault. -/
structure Refuses (document : JsonValue) (fault : Fault) : Prop where
  ok : document.member? "ok" = some (.bool false)
  message : ∃ error, document.member? "error" = some error ∧ error.member? "message" = some (.text fault.message)
  unreported : document.member? "report" = none

/-! ### what is written -/

theorem label_eq_succeeded (state : JobState) : state.label = "succeeded" ↔ state = .succeeded := by
  cases state <;> simp [JobState.label]

theorem label_of_isTerminal {state : JobState} (h : state.isTerminal = true) :
    state.label = "succeeded" ∨ state.label = "failed" := by
  cases state with
  | pending | running => cases h
  | succeeded => exact .inl rfl
  | failed exitCode => exact .inr rfl

theorem exitCode?_eq_none {state : JobState} (h : state.isTerminal = true) :
    state.exitCode? = none ↔ state = .succeeded ∨ state = .failed none := by
  cases state with
  | pending | running => cases h
  | succeeded => simp [JobState.exitCode?]
  | failed exitCode => simp [JobState.exitCode?]

theorem tells_json (clock : Nat → String) (job : Job) (ending : Ending) (launched finished : Nat) :
    Tells ((JobReport.ofJob job ending.state launched finished).json clock) job ending where
  host := rfl
  hostname := rfl
  log := rfl
  status := by
    change some (JsonValue.text ending.state.label) = _ ∨ some (JsonValue.text ending.state.label) = _
    rcases label_of_isTerminal ending.isTerminal_state with hlabel | hlabel
    · exact .inl (congrArg _ (congrArg _ hlabel))
    · exact .inr (congrArg _ (congrArg _ hlabel))
  succeeded := by
    change some (JsonValue.text ending.state.label) = _ ↔ _
    simpa using label_eq_succeeded ending.state
  codeless := by
    change some (JsonValue.ofOption .number ending.state.exitCode?) = _ ↔ _
    rw [← exitCode?_eq_none ending.isTerminal_state]
    cases ending.state.exitCode? <;> simp [JsonValue.ofOption]
  coded code hstate := by
    change some (JsonValue.ofOption .number ending.state.exitCode?) = _
    rw [hstate]
    rfl

/-- An entry has the status of a failure if its job has come to its end and did not succeed. -/
theorem isFailed_json (clock : Nat → String) {report : JobReport} (h : report.state.isTerminal = true) :
    (report.json clock).isFailed = !report.succeeded := by
  obtain ⟨host, jobClass, log, state, launched, finished⟩ := report
  cases state with
  | pending | running => cases h
  | succeeded | failed exitCode => rfl

theorem leaderEntries_json (clock : Nat → String) (report : PhaseReport) :
    (report.json clock).leaderEntries = report.leader.toList.map (JobReport.json clock) := by
  obtain ⟨jobClass, leader, jobs, skipped⟩ := report
  cases leader <;> rfl

theorem unitEntries_json (clock : Nat → String) (report : PhaseReport) :
    (report.json clock).unitEntries = report.jobs.map (JobReport.json clock) := rfl

theorem phases_json (clock : Nat → String) (report : RunReport) :
    (report.json clock).phases = report.phases.map (PhaseReport.json clock) := rfl

theorem countP_isFailed_phase (clock : Nat → String) (phase : PhaseReport)
    (h : ∀ job ∈ phase.all, job.state.isTerminal = true) :
    ((phase.json clock).leaderEntries ++ (phase.json clock).unitEntries).countP JsonValue.isFailed =
      phase.failures := by
  rw [leaderEntries_json, unitEntries_json, ← List.map_append, List.countP_map, PhaseReport.failures]
  refine List.countP_congr fun job hjob => ?_
  rw [Function.comp_apply, isFailed_json clock (h job hjob)]

/-- If all jobs have come to their ends, the failures that a report counts are the entries with the status of a
failure. -/
theorem countP_isFailed (clock : Nat → String) (report : RunReport)
    (h : ∀ phase ∈ report.phases, ∀ job ∈ phase.all, job.state.isTerminal = true) :
    (report.json clock).entries.countP JsonValue.isFailed = report.failures := by
  -- the report adds up phase by phase what the entries are counted in one go
  rw [JsonValue.entries, phases_json, List.flatMap_map, RunReport.failures]
  generalize report.phases = phases at h ⊢
  induction phases with
  | nil => rfl
  | cons phase rest ih =>
    have hphase := countP_isFailed_phase clock phase (h phase List.mem_cons_self)
    have hrest := ih fun other hmem => h other (List.mem_cons_of_mem phase hmem)
    rw [List.flatMap_cons, List.countP_append, hphase, hrest, List.foldr_cons]

/-! ### runs that are over -/

section Run

variable {r : Run} {phases : List Phase}

theorem forall₂_tellsOf (clock : Nat → String) {k : Nat} {events : List Event} {reports : List JobReport}
    {tasks : List (Slot × Job)} (hevents : r.eventsOf k = events) (h : List.Forall₂ (ReportOf events) reports tasks) :
    List.Forall₂ (TellsOf r k) (reports.map (JobReport.json clock)) tasks := by
  refine List.forall₂_map_left_iff.mpr (h.imp ?_)
  rintro _ ⟨slot, job⟩ ⟨ending, launched, finished, hendings, rfl⟩
  exact ⟨ending, by rw [Run.endings, hevents, hendings], tells_json clock job ending launched finished⟩

theorem reportsPhase_json (clock : Nat → String) {p : Phase} {s : State} {k : Nat} (hledger : Ledger p s)
    (hclosed : s.stage = .closed) (hevents : r.eventsOf k = s.events) :
    ReportsPhase r ((s.report p).json clock) (p, k) where
  jobClass := rfl
  skipped := rfl
  leader := leaderEntries_json clock _ ▸ forall₂_tellsOf clock hevents (hledger.closed_leaderTask hclosed)
  units := unitEntries_json clock _ ▸ forall₂_tellsOf clock hevents (hledger.closed_jobTasks hclosed)

theorem terminal_of_over (h : Run.Reaches (.initial phases) r) (hover : r.isOver = true) {testbed : String} :
    ∀ phase ∈ (r.report testbed).phases, ∀ job ∈ phase.all, job.state.isTerminal = true := by
  have hordered := Run.InOrder.of_reaches h
  obtain ⟨hbegun, -⟩ := hordered.finished hover
  intro phase hphase
  obtain ⟨x, hx, rfl⟩ := List.mem_map.mp hphase
  exact (hordered.ledger (hbegun ▸ hx)).closed_terminal (hordered.past_closed x hx)

/-- **The document of a run that is over.** -/
theorem reports_document (clock : Nat → String) {plan : Plan} (h : Run.Reaches (.initial plan.phases) r)
    (hover : r.isOver = true) : Reports ((r.report plan.testbed).document clock) plan r where
  ok := rfl
  report := by
    refine ⟨_, rfl, rfl, ?_, ?_⟩
    · rw [countP_isFailed clock _ (terminal_of_over h hover)]
      rfl
    · -- the phases that are over are those of the plan, each with its own number
      have hordered := Run.InOrder.of_reaches h
      obtain ⟨hbegun, hphases⟩ := hordered.finished hover
      rw [phases_json, ← hphases, List.zipIdx_map, List.forall₂_map_left_iff, Run.report, List.forall₂_map_left_iff,
        List.forall₂_map_right_iff]
      refine List.forall₂_iff_get.mpr ⟨by simp, fun k hk hk' => ?_⟩
      obtain ⟨x, hx, -, hclosed, hledger⟩ := hordered.past_of_lt hk
      obtain rfl : r.past[k] = x := by
        rw [hbegun, List.getElem?_eq_getElem hk] at hx
        exact Option.some.inj hx
      simpa using reportsPhase_json clock hledger hclosed (r.eventsOf_eq hx)

end Run

theorem refuses_document (fault : Fault) : Refuses fault.document fault := ⟨rfl, ⟨_, rfl, rfl⟩, rfl⟩

/-! ### what a command line comes to -/

def CommandLine.plan (c : CommandLine) (explain : String → String) (stamp : String) (d : Directory) :
    Except Fault Plan := do
  let config ← Rollout.load explain d c.configFile
  Rollout.plan config c.request stamp d

/-- What carrying out a command line ends with: the fault of loading or planning, or a plan with a run that is over. -/
inductive CommandLine.Ends (c : CommandLine) (explain : String → String) (stamp : String) (d : Directory) :
    Except Fault (Plan × Run) → Prop where
  | refused {fault : Fault} : c.plan explain stamp d = .error fault → Ends c explain stamp d (.error fault)
  | finished {plan : Plan} {r : Run} : c.plan explain stamp d = .ok plan → Run.Reaches (.initial plan.phases) r →
      r.isOver = true → Ends c explain stamp d (.ok (plan, r))

def Reply.ofEnd (wantsJson : Bool) (clock : Nat → String) : Except Fault (Plan × Run) → Reply
  | .error fault => .ofFault wantsJson fault
  | .ok (plan, r) => .ofReport wantsJson clock (r.report plan.testbed) (plan.notices ++ r.notices)

theorem exitCode_ofFault (wantsJson : Bool) (fault : Fault) : (Reply.ofFault wantsJson fault).exitCode = 1 := by
  cases wantsJson <;> rfl

namespace CommandLine

variable {c : CommandLine} {explain : String → String} {stamp : String} {d : Directory} {clock : Nat → String}

theorem Ends.exitCode {e : Except Fault (Plan × Run)} (h : c.Ends explain stamp d e) :
    (Reply.ofEnd c.wantsJson clock e).exitCode = if (c.plan explain stamp d).isOk then 0 else 1 := by
  cases h with
  | refused hplan =>
    rw [hplan]
    exact exitCode_ofFault _ _
  | finished hplan hreaches hover =>
    rw [hplan]
    rfl

theorem Ends.exitCode_eq_zero {e : Except Fault (Plan × Run)} (h : c.Ends explain stamp d e) :
    (Reply.ofEnd c.wantsJson clock e).exitCode = 0 ↔ ∃ plan, c.plan explain stamp d = .ok plan := by
  rw [h.exitCode]
  cases c.plan explain stamp d with
  | error fault => simp [Except.isOk, Except.toBool]
  | ok plan => simp [Except.isOk, Except.toBool]

theorem Ends.document {e : Except Fault (Plan × Run)} (h : c.Ends explain stamp d e) (hjson : c.wantsJson = true) :
    ∃ text document, (Reply.ofEnd c.wantsJson clock e).output = text ++ "\n" ∧
      JsonValue.read? text = some document ∧
      ((∃ plan r, e = .ok (plan, r) ∧ (Reply.ofEnd c.wantsJson clock e).exitCode = 0 ∧ Reports document plan r) ∨
        ∃ fault, e = .error fault ∧ (Reply.ofEnd c.wantsJson clock e).exitCode ≠ 0 ∧ Refuses document fault) := by
  rw [hjson]
  cases h with
  | @refused fault hplan =>
    refine ⟨fault.document.render, fault.document, rfl, JsonValue.read?_render _, .inr ⟨fault, rfl, ?_, ?_⟩⟩
    · exact Nat.one_ne_zero
    · exact refuses_document fault
  | @finished plan r hplan hreaches hover =>
    refine ⟨_, _, rfl, JsonValue.read?_render _, .inl ⟨plan, r, rfl, rfl, ?_⟩⟩
    exact reports_document clock hreaches hover

theorem exists_ends (c : CommandLine) (explain : String → String) (stamp : String) (d : Directory) :
    ∃ e, c.Ends explain stamp d e := by
  cases hplan : c.plan explain stamp d with
  | error fault => exact ⟨_, .refused hplan⟩
  | ok plan =>
    obtain ⟨r, hreaches, hover⟩ := Run.exists_over (.refl (.initial plan.phases))
    exact ⟨_, .finished hplan hreaches hover⟩

/-! ### the machine -/

theorem rollOut_of_plan_error {s : Setup} {fault : Fault} (h : c.plan s.explain s.stamp d = .error fault) :
    c.rollOut s d = some (.refused d fault) := by
  unfold plan at h
  unfold rollOut
  cases hload : Rollout.load s.explain d c.configFile with
  | error other =>
    rw [hload] at h
    obtain rfl : other = fault := Except.error.inj h
    rfl
  | ok config =>
    rw [hload] at h
    exact Rollout.run_of_plan_error h

theorem rollOut_of_plan_ok {s : Setup} {plan : Plan} (h : c.plan s.explain s.stamp d = .ok plan) :
    c.rollOut s d = Rollout.ofPlan s plan d := by
  unfold CommandLine.plan at h
  unfold rollOut
  cases hload : Rollout.load s.explain d c.configFile with
  | error other =>
    rw [hload] at h
    cases h
  | ok config =>
    rw [hload] at h
    exact Rollout.run_of_plan_ok h

theorem ends_of_rollOut {s : Setup} {rollout : Rollout} (h : c.rollOut s d = some rollout) :
    ∃ e, c.Ends s.explain s.stamp d e ∧
      Reply.ofRollout c.wantsJson s.clock rollout = .ofEnd c.wantsJson s.clock e := by
  cases hplan : c.plan s.explain s.stamp d with
  | error fault =>
    rw [rollOut_of_plan_error hplan] at h
    obtain rfl := Option.some.inj h
    exact ⟨_, .refused hplan, rfl⟩
  | ok plan =>
    rw [rollOut_of_plan_ok hplan] at h
    obtain ⟨r, hreaches, hover, hresult, hnotices, -⟩ := Rollout.ofPlan_eq_some h
    refine ⟨_, .finished hplan hreaches hover, ?_⟩
    rw [Reply.ofRollout, hresult, hnotices]
    rfl

theorem rollOut_eq_none {s : Setup} : c.rollOut s d = none ↔
    ∃ plan, c.plan s.explain s.stamp d = .ok plan ∧ ∃ p ∈ plan.phases, Rollout.opening? s p = none := by
  cases hplan : c.plan s.explain s.stamp d with
  | error fault => simp [rollOut_of_plan_error hplan]
  | ok plan => simp [rollOut_of_plan_ok hplan, Rollout.ofPlan_eq_none]

theorem answer_eq {words : List String} (s : Setup) (hwords : parse words = .ok c) (d : Directory) :
    answer s words d = (c.rollOut s d).map fun r => (.ofRollout c.wantsJson s.clock r, r.machine) := by
  rw [answer, hwords]

/-- **The exit code tells of the plan, and the document of the run.**  Whatever the executions of a command line come to
and in whatever order, it is answered with zero if and only if the configuration can be loaded and the run planned, so
all its ends have one exit code.  With JSON the output is one document and a line break: if the exit code is zero, it
says so and has the report of the run, in which `failed` counts the entries with the status `failed`, the entries of a
phase are those of its leader's command and of its jobs in their order, each status is one of `succeeded` and `failed`,
and an exit code is null just for successes and for failures without one; else it has the message of the fault.  There
always is such an end, and what the machine answers is one.  The machine does not answer just if the run is to wait for
a port of a leader that never opens. -/
theorem exit_code_of_plan (words : List String) (c : CommandLine) (hwords : parse words = .ok c) (d : Directory) :
    (∀ explain stamp clock e, c.Ends explain stamp d e →
      ((Reply.ofEnd c.wantsJson clock e).exitCode = 0 ↔ ∃ plan, c.plan explain stamp d = .ok plan) ∧
      (∀ clock' e', c.Ends explain stamp d e' →
        (Reply.ofEnd c.wantsJson clock' e').exitCode = (Reply.ofEnd c.wantsJson clock e).exitCode) ∧
      (c.wantsJson = true → ∃ text document, (Reply.ofEnd c.wantsJson clock e).output = text ++ "\n" ∧
        JsonValue.read? text = some document ∧
        ((∃ plan r, e = .ok (plan, r) ∧ (Reply.ofEnd c.wantsJson clock e).exitCode = 0 ∧ Reports document plan r) ∨
          ∃ fault, e = .error fault ∧ (Reply.ofEnd c.wantsJson clock e).exitCode ≠ 0 ∧ Refuses document fault))) ∧
    (∀ explain stamp, ∃ e, c.Ends explain stamp d e) ∧
    (∀ s reply m, answer s words d = some (reply, m) →
      (reply.exitCode = 0 ↔ ∃ plan, c.plan s.explain s.stamp d = .ok plan) ∧
      ∃ e, c.Ends s.explain s.stamp d e ∧ reply = .ofEnd c.wantsJson s.clock e) ∧
    (∀ s, answer s words d = none ↔
      ∃ plan, c.plan s.explain s.stamp d = .ok plan ∧ ∃ p ∈ plan.phases, Rollout.opening? s p = none) := by
  refine ⟨fun explain stamp clock e he => ⟨he.exitCode_eq_zero, fun clock' e' he' => ?_, he.document⟩,
    fun explain stamp => c.exists_ends explain stamp d, ?_, fun s => ?_⟩
  · rw [he.exitCode, he'.exitCode]
  · intro s reply m hanswer
    rw [answer_eq s hwords] at hanswer
    obtain ⟨rollout, hrollout, heq⟩ := Option.map_eq_some_iff.mp hanswer
    obtain ⟨rfl, -⟩ := Prod.mk.inj heq
    obtain ⟨e, he, hreply⟩ := ends_of_rollOut hrollout
    refine ⟨?_, e, he, hreply⟩
    rw [hreply]
    exact he.exitCode_eq_zero
  · rw [answer_eq s hwords, Option.map_eq_none_iff]
    exact rollOut_eq_none

/-- A command for two hosts, with JSON. -/
def sampleWords : List String := ["--nodefile", "utah.csv", "--cmd", "uptime", "--json"]

def sampleLine : CommandLine := ⟨[.json], [(.nodeFile, ["utah.csv"]), (.command, ["uptime"])]⟩

/-- A directory with a configuration of a text, and with a node file. -/
def sampleFiles (config : String) : Directory where
  tree := ⟨[("rexec.yaml", .file (Text.bytes config) false),
    ("utah.csv", .file (Text.bytes "n1,a,m510\nn2,b,m510\n") false)]⟩
  location := []

def sampleConfig : String := "common:\n  remote_user: u\nexperiments: \x7b\x7d\n"

/-- A machine on which all commands fail, and a decoder of few words. -/
def sampleSetup : Setup :=
  ⟨.ofRunner fun d _ _ => .ok (.exited 3, d.tree), fun _ _ => none, fun _ => "not a mapping", "", fun _ => "noon"⟩

/-- Both hosts fail and the exit code is zero all the same, with the report as JSON; for a text that is no configuration
it is not zero, and the message ends in the decoder's words. -/
theorem exit_code_of_plan_sample :
    parse sampleWords = .ok sampleLine ∧
    (∃ reply m text document plan r, answer sampleSetup sampleWords (sampleFiles sampleConfig) = some (reply, m) ∧
      reply.exitCode = 0 ∧ reply.output = text ++ "\n" ∧ JsonValue.read? text = some document ∧
      Reports document plan r) ∧
    ∃ reply m text document error, answer sampleSetup sampleWords (sampleFiles "[]") = some (reply, m) ∧
      reply.exitCode ≠ 0 ∧ reply.output = text ++ "\n" ∧ JsonValue.read? text = some document ∧
      document.member? "error" = some error ∧
      error.member? "message" = some (.text "failed to read config rexec.yaml: not a mapping") := by
  have hwords : parse sampleWords = .ok sampleLine := rfl
  refine ⟨hwords, ?planned, ?refused⟩
  case planned =>
    obtain ⟨hends, -, hanswers, hnone⟩ := exit_code_of_plan sampleWords sampleLine hwords (sampleFiles sampleConfig)
    obtain ⟨plan, hplan, hleaders⟩ : ∃ plan,
        sampleLine.plan sampleSetup.explain "" (sampleFiles sampleConfig) = .ok plan ∧
          ∀ p ∈ plan.phases, p.leader = none := by
      have hchecked : (sampleLine.plan sampleSetup.explain "" (sampleFiles sampleConfig)).toOption.any (fun plan =>
          plan.phases.all fun p => p.leader.isNone) = true := by decide +kernel
      cases hplan : sampleLine.plan sampleSetup.explain "" (sampleFiles sampleConfig) with
      | error fault =>
        rw [hplan] at hchecked
        cases hchecked
      | ok plan =>
        rw [hplan] at hchecked
        exact ⟨plan, rfl, fun p hp => Option.isNone_iff_eq_none.mp (List.all_eq_true.mp hchecked p hp)⟩
    -- no port is waited for, so there is an answer
    obtain ⟨⟨reply, m⟩, hanswer⟩ : ∃ x, answer sampleSetup sampleWords (sampleFiles sampleConfig) = some x := by
      refine Option.ne_none_iff_exists'.mp fun h => ?_
      obtain ⟨other, hother, p, hp, hopening⟩ := (hnone sampleSetup).mp h
      obtain rfl : plan = other := Except.ok.inj (hplan.symm.trans hother)
      rw [Rollout.opening?, hleaders p hp] at hopening
      cases hopening
    obtain ⟨hzero, e, he, rfl⟩ := hanswers _ _ _ hanswer
    have hexit := hzero.mpr ⟨plan, hplan⟩
    obtain ⟨text, document, houtput, hread, hreport | ⟨fault, -, hfault, -⟩⟩ :=
      (hends _ _ sampleSetup.clock e he).2.2 rfl
    · obtain ⟨plan, r, -, -, hreports⟩ := hreport
      exact ⟨_, m, text, document, plan, r, hanswer, hexit, houtput, hread, hreports⟩
    · exact absurd hexit hfault
  case refused =>
    obtain ⟨hends, -, hanswers, hnone⟩ := exit_code_of_plan sampleWords sampleLine hwords (sampleFiles "[]")
    have hplan : sampleLine.plan sampleSetup.explain "" (sampleFiles "[]") =
        .error (.unreadableConfig ⟨"rexec.yaml"⟩ "not a mapping") := fault?_eq_some.mp (by decide +kernel)
    obtain ⟨⟨reply, m⟩, hanswer⟩ : ∃ x, answer sampleSetup sampleWords (sampleFiles "[]") = some x := by
      refine Option.ne_none_iff_exists'.mp fun h => ?_
      obtain ⟨plan, hother, -⟩ := (hnone sampleSetup).mp h
      cases hplan.symm.trans hother
    obtain ⟨hzero, e, he, rfl⟩ := hanswers _ _ _ hanswer
    obtain ⟨text, document, houtput, hread, ⟨plan, r, rfl, -⟩ | ⟨fault, rfl, hexit, hrefuses⟩⟩ :=
      (hends _ _ sampleSetup.clock e he).2.2 rfl
    · cases he with
      | finished hother => cases hplan.symm.trans hother
    · obtain ⟨error, herror, hmessage⟩ := hrefuses.message
      refine ⟨_, m, text, document, error, hanswer, hexit, houtput, hread, herror, ?_⟩
      cases he with
      | refused hother =>
        obtain rfl := Except.error.inj (hplan.symm.trans hother)
        exact hmessage

end CommandLine

end Fleet
