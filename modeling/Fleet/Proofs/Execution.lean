import Fleet.Execution
import Fleet.Proofs.FileTree.Folder
import Fleet.Proofs.Plan.Make

/-!
# What an execution leaves behind

An execution either is refused before its command is started, or starts the command from a directory in which its log
has been begun (`execute_cases`).  `Begun` says what such a directory is like: it holds the folders of the job and the
first bytes of the log, and everything else is as it was.  So a refused execution is one that no command had a part in,
and in the log of any other one the output of the command comes after the header.
-/

namespace Fleet

open Text (Bytes)

/-- All that a command leaves in its log is its output, at the end of what is there when it is started. -/
def CommandRunner.Appends (runner : CommandRunner) (command : String) (output : Directory → Location → Bytes) : Prop :=
  ∀ d log status tree bytes, runner d log command = .ok (status, tree) → d.tree.file? log = some bytes →
    tree.file? log = some (bytes ++ output d log)

def CommandRunner.refusing (fault : SystemFault) : CommandRunner := fun _ _ _ => .error fault

theorem FileTree.file?_eq_some {t : FileTree} {l : Location} {bytes : Bytes} :
    t.file? l = some bytes ↔ ∃ isProgram, t.at? l = some (.file bytes isProgram) := by
  unfold file?
  cases t.at? l with
  | none => simp
  | some node => cases node <;> simp

namespace Execution

variable {s : System} {c : Config} {job : Job} {d d' d'' : Directory} {l log : Location} {bytes bytes' : Bytes}

/-! ### the log -/

/-- The file at a path has been given bytes, and nothing else has changed.  A device is as it was. -/
structure Wrote (p : Path) (log : Location) (bytes : Bytes) (d d' : Directory) : Prop where
  location : d'.location = d.location
  writable : d'.writable p = .ok log
  folders : d.tree.KeepsFolders d'.tree
  file : (∃ kind, d.tree.at? log = some (.device kind) ∧ d' = d) ∨
    (∀ kind, d.tree.at? log ≠ some (.device kind)) ∧ ∃ isProgram, d'.tree.at? log = some (.file bytes isProgram)
  rest : ∀ l, l ≠ log → d'.tree.item? l = d.tree.item? l

namespace Wrote

variable {p : Path}

theorem of_write (hwritable : d.writable p = .ok log) (h : d.write p bytes = .ok d') : Wrote p log bytes d d' := by
  obtain ⟨log', hwritable', hlocation, hwritten⟩ := Directory.write_eq_ok h
  obtain rfl : log' = log := Except.ok.inj (hwritable'.symm.trans hwritable)
  refine ⟨hlocation, Directory.writable_of_write h hwritable, Directory.keepsFolders_of_write h, ?_, ?_⟩
  · exact hwritten.imp_right fun hfile => ⟨hfile.1, hfile.2.1⟩
  · rcases hwritten with ⟨-, -, rfl⟩ | ⟨-, -, hrest⟩
    · exact fun l _ => rfl
    · exact hrest

theorem trans (h : Wrote p log bytes d d') (h' : Wrote p log bytes' d' d'') : Wrote p log bytes' d d'' where
  location := h'.location.trans h.location
  writable := h'.writable
  folders := fun l hl => h'.folders l (h.folders l hl)
  rest l hl := (h'.rest l hl).trans (h.rest l hl)
  file := by
    rcases h.file with ⟨kind, hdevice, rfl⟩ | ⟨hfree, isProgram, hfile⟩
    · exact h'.file
    · refine .inr ⟨hfree, ?_⟩
      rcases h'.file with ⟨kind, hdevice, -⟩ | ⟨-, hfile'⟩
      · rw [hfile] at hdevice
        cases hdevice
      · exact hfile'

end Wrote

theorem fill_spec {p : Path} (hempty : Wrote p log [] d d') (header : Bytes)
    {result : Except SystemFault Unit} (h : fill s d' p log header = (d'', result)) :
    ∃ bytes, bytes <+: header ∧ Wrote p log bytes d d'' ∧ (result = .ok () → bytes = header) := by
  unfold fill at h
  split at h
  · rename_i written fault _
    cases hwrite : d'.write p (header.take written) with
    | ok full =>
      rw [hwrite] at h
      obtain ⟨rfl, rfl⟩ := Prod.mk.inj h
      exact ⟨_, List.take_prefix _ _, hempty.trans (.of_write hempty.writable hwrite), nofun⟩
    | error other =>
      rw [hwrite] at h
      obtain ⟨rfl, rfl⟩ := Prod.mk.inj h
      exact ⟨[], List.nil_prefix, hempty, nofun⟩
  · cases hwrite : d'.write p header with
    | ok full =>
      rw [hwrite] at h
      obtain ⟨rfl, rfl⟩ := Prod.mk.inj h
      exact ⟨header, List.prefix_rfl, hempty.trans (.of_write hempty.writable hwrite), fun _ => rfl⟩
    | error fault =>
      rw [hwrite] at h
      obtain ⟨rfl, rfl⟩ := Prod.mk.inj h
      exact ⟨[], List.nil_prefix, hempty, nofun⟩

/-! ### the directory that a command is started from -/

/-- The folders that must be there for a job: its own, and the one of its log. -/
def foldersOf (job : Job) : List Path := job.folders ++ job.log.parent?.toList

/-- The folders of a job have been ensured, and its log has been begun at a location with the given bytes. -/
def Begun (job : Job) (bytes : Bytes) (d d' : Directory) (log : Location) : Prop :=
  ∃ d₁, d.Grows d₁ ∧ (∀ folder ∈ foldersOf job, d₁.Holds folder) ∧ Wrote job.log log bytes d₁ d'

namespace Begun

theorem eq_location (h : Begun job bytes d d' log) : d'.location = d.location := by
  obtain ⟨d₁, hgrows, -, hwrote⟩ := h
  rw [hwrote.location, hgrows.1]

theorem writable (h : Begun job bytes d d' log) : d'.writable job.log = .ok log := by
  obtain ⟨d₁, -, -, hwrote⟩ := h
  exact hwrote.writable

theorem exists_parent (h : Begun job bytes d d' log) :
    ∃ parent name, log = parent ++ [name] ∧ d'.tree.isDirectory parent = true := by
  obtain ⟨target, hfind, rfl, -, hnamed, -⟩ := Directory.writable_eq_ok.mp h.writable
  exact Directory.parent_of_find hfind hnamed

theorem holds (h : Begun job bytes d d' log) {folder : Path} (hfolder : folder ∈ foldersOf job) : d'.Holds folder := by
  obtain ⟨d₁, -, hholds, hwrote⟩ := h
  have hkept := hwrote.folders
  have hlocation := hwrote.location
  obtain ⟨tree, location⟩ := d'
  obtain rfl : location = d₁.location := hlocation
  exact (hholds folder hfolder).imp_right (Directory.isDirectory_mono hkept)

theorem item? (h : Begun job bytes d d' log) {node : FileNode} (hnode : d.tree.item? l = some node) (hl : l ≠ log) :
    d'.tree.item? l = some node := by
  obtain ⟨d₁, hgrows, -, hwrote⟩ := h
  rw [hwrote.rest l hl]
  exact hgrows.2.item? hnode

theorem file? (h : Begun job bytes d d' log) :
    (∃ kind, d.tree.at? log = some (.device kind)) ∨ d'.tree.file? log = some bytes := by
  obtain ⟨d₁, hgrows, -, hwrote⟩ := h
  rcases hwrote.file with ⟨kind, hdevice, -⟩ | ⟨-, hfile⟩
  · have hitem := (FileTree.at?_eq_of_item? rfl).mpr hdevice
    exact .inl ⟨kind, (FileTree.at?_eq_of_item? rfl).mp (hgrows.2.item?_of_not_isDirectory rfl hitem)⟩
  · exact .inr (FileTree.file?_eq_some.mpr hfile)

end Begun

/-! ### the ways an execution can go -/

/-- How far a refused execution has come: folders have been made, and the log may have been begun. -/
def Abandoned (c : Config) (job : Job) (d d' : Directory) : Prop :=
  d.Grows d' ∨ ∃ log bytes, bytes <+: Text.bytes (header c job) ∧ Begun job bytes d d' log

theorem Abandoned.item? (h : Abandoned c job d d') {node : FileNode} (hnode : d.tree.item? l = some node) :
    d'.tree.item? l = some node ∨ d'.writable job.log = .ok l := by
  rcases h with hgrows | ⟨log, bytes, -, hbegun⟩
  · exact .inl (hgrows.2.item? hnode)
  · by_cases hl : l = log
    · subst hl
      exact .inr hbegun.writable
    · exact .inl (hbegun.item? hnode hl)

/-- The execution has been refused, and no command had a part in it. -/
def Refused (s : System) (c : Config) (job : Job) (d : Directory) (e : Execution) : Prop :=
  ∃ d' fault, Abandoned c job d d' ∧ e = refused d' fault ∧ execute { s with runner := .refusing fault } c job d = e

/-- The command of the job has been started, and has come to an end. -/
def Ended (s : System) (c : Config) (job : Job) (d : Directory) (e : Execution) : Prop :=
  ∃ d' log status tree, Begun job (Text.bytes (header c job)) d d' log ∧
    s.runner d' log (job.shellCommand c.common.access c.common.loginShell) = .ok (status, tree) ∧
    e = ⟨{ d' with tree }, some d'.tree, .ok status.outcome⟩

theorem launch_cases (s : System) (d : Directory) (log : Location) (command : String) :
    (∃ fault, launch s d log command = refused d fault ∧
      launch { s with runner := .refusing fault } d log command = refused d fault) ∨
    ∃ status tree, s.runner d log command = .ok (status, tree) ∧
      launch s d log command = ⟨{ d with tree }, some d.tree, .ok status.outcome⟩ := by
  unfold launch
  cases hwithheld : s.withheld d log with
  | some fault => exact .inl ⟨fault, rfl, by simp only [hwithheld]⟩
  | none =>
    by_cases hnul : '\x00' ∈ command.toList
    · exact .inl ⟨.nulInCommand, by simp only [hnul, if_true], by simp only [hwithheld, hnul, if_true]⟩
    · simp only [hnul, if_false, hwithheld]
      cases hrun : s.runner d log command with
      | error fault => exact .inl ⟨fault, rfl, rfl⟩
      | ok run => exact .inr ⟨run.1, run.2, rfl, rfl⟩

theorem record_eq_launch (s : System) (c : Config) (job : Job) {d₁ : Directory} (hgrows : d.Grows d₁)
    (hholds : ∀ folder ∈ foldersOf job, d₁.Holds folder) :
    (∃ d' fault, Abandoned c job d d' ∧ ∀ runner, record { s with runner } c job d₁ = refused d' fault) ∨
    ∃ d' log, Begun job (Text.bytes (header c job)) d d' log ∧ ∀ runner, record { s with runner } c job d₁ =
      launch { s with runner } d' log (job.shellCommand c.common.access c.common.loginShell) := by
  cases hwritable : d₁.writable job.log with
  | error fault => exact .inl ⟨d₁, fault, .inl hgrows, fun runner => by simp only [record, hwritable]⟩
  | ok log =>
    cases hcreated : d₁.write job.log [] with
    | error fault => exact .inl ⟨d₁, fault, .inl hgrows, fun runner => by simp only [record, hwritable, hcreated]⟩
    | ok d₂ =>
      have hempty : Wrote job.log log [] d₁ d₂ := .of_write hwritable hcreated
      have hfill : ∀ runner, fill { s with runner } d₂ job.log log = fill s d₂ job.log log := fun _ => rfl
      rcases hfilled : fill s d₂ job.log log (Text.bytes (header c job)) with ⟨d₃, fault | ⟨⟩⟩
      · obtain ⟨bytes, hprefix, hwrote, -⟩ := fill_spec hempty _ hfilled
        refine .inl ⟨d₃, fault, .inr ⟨log, bytes, hprefix, d₁, hgrows, hholds, hwrote⟩, fun runner => ?_⟩
        simp only [record, hwritable, hcreated, hfill, hfilled]
      · obtain ⟨bytes, -, hwrote, hall⟩ := fill_spec hempty _ hfilled
        obtain rfl := hall rfl
        refine .inr ⟨d₃, log, ⟨d₁, hgrows, hholds, hwrote⟩, fun runner => ?_⟩
        simp only [record, hwritable, hcreated, hfill, hfilled]

theorem execute_eq_launch (s : System) (c : Config) (job : Job) (d : Directory) :
    (∃ d' fault, Abandoned c job d d' ∧ ∀ runner, execute { s with runner } c job d = refused d' fault) ∨
    ∃ d' log, Begun job (Text.bytes (header c job)) d d' log ∧ ∀ runner, execute { s with runner } c job d =
      launch { s with runner } d' log (job.shellCommand c.common.access c.common.loginShell) := by
  rcases hfolders : d.ensureFolders job.folders with ⟨d₁, fault | ⟨⟩⟩
  · refine .inl ⟨d₁, fault, .inl (Directory.ensureFolders_spec hfolders).1, fun runner => ?_⟩
    rw [execute, hfolders]
  obtain ⟨hgrows₁, hholds₁⟩ := Directory.ensureFolders_spec hfolders
  rcases hparent : d₁.ensureParent job.log with ⟨d₂, fault | ⟨⟩⟩
  · refine .inl ⟨d₂, fault, .inl (hgrows₁.trans (Directory.ensureFolders_spec hparent).1), fun runner => ?_⟩
    simp only [execute, hfolders, hparent]
  obtain ⟨hgrows₂, hholds₂⟩ := Directory.ensureFolders_spec hparent
  have hholds : ∀ folder ∈ foldersOf job, d₂.Holds folder := by
    intro folder hfolder
    rcases List.mem_append.mp hfolder with hown | hlog
    · exact hgrows₂.holds (hholds₁ rfl folder hown)
    · exact hholds₂ rfl folder hlog
  have hrecord : ∀ runner, execute { s with runner } c job d = record { s with runner } c job d₂ := fun runner => by
    simp only [execute, hfolders, hparent]
  simp only [hrecord]
  exact record_eq_launch s c job (hgrows₁.trans hgrows₂) hholds

/-- **What can become of an execution.** -/
theorem execute_cases (s : System) (c : Config) (job : Job) (d : Directory) :
    Refused s c job d (execute s c job d) ∨ Ended s c job d (execute s c job d) := by
  rcases execute_eq_launch s c job d with ⟨d', fault, habandoned, hrefused⟩ | ⟨d', log, hbegun, hlaunch⟩
  · exact .inl ⟨d', fault, habandoned, hrefused s.runner, (hrefused _).trans (hrefused s.runner).symm⟩
  · rcases launch_cases s d' log (job.shellCommand c.common.access c.common.loginShell) with
      ⟨fault, hfault, hrefusing⟩ | ⟨status, tree, hrun, hended⟩
    · refine .inl ⟨d', fault, .inr ⟨log, _, List.prefix_rfl, hbegun⟩, (hlaunch s.runner).trans hfault, ?_⟩
      exact ((hlaunch _).trans hrefusing).trans ((hlaunch s.runner).trans hfault).symm
    · exact .inr ⟨d', log, status, tree, hbegun, hrun, (hlaunch s.runner).trans hended⟩

/-! ### the outcome -/

theorem outcome_eq_succeeded {status : ExitStatus} : status.outcome = .succeeded ↔ status = .exited 0 := by
  unfold ExitStatus.outcome
  split <;> simp_all

theorem outcome_eq_failed {status : ExitStatus} {exitCode : Option Int} :
    status.outcome = .failed exitCode ↔
      (∃ code : Nat, code ≠ 0 ∧ status = .exited code ∧ exitCode = some (code : Int)) ∨
        ∃ signal, status = .killed signal ∧ exitCode = none := by
  unfold ExitStatus.outcome
  split
  · simp
  · rename_i code hcode
    simp only [Outcome.failed.injEq, ExitStatus.exited.injEq, reduceCtorEq, false_and, exists_false, or_false]
    constructor
    · rintro rfl
      exact ⟨code, fun hzero => hcode (by rw [hzero]), rfl, rfl⟩
    · rintro ⟨_, -, rfl, rfl⟩
      rfl
  · simp [eq_comm]

/-! ### the log and the failure path -/

/-- **The log and the failure path of an execution**, whatever the system runs out of.  If an execution answers with a
fault, its command has not been started: the execution is that of a system that runs nothing, and what was there is
there still, except for the log.  If it answers with an outcome, there is a directory that the command was started from.
It held every folder of the job and the one of the log; the log held the header alone, and then the header and the
output, unless it was a device, which keeps nothing; and the outcome tells the exit status of the command. -/
theorem execute_log (s : System) (output : Directory → Location → Bytes) (c : Config) (job : Job)
    (d : Directory) (happends : s.runner.Appends (job.shellCommand c.common.access c.common.loginShell) output) :
    let e := execute s c job d
    (∀ fault, e.answer = .error fault →
      e.started = none ∧
      (∃ reason, fault = .system reason ∧ execute { s with runner := .refusing reason } c job d = e) ∧
      ∀ l node, d.tree.item? l = some node →
        e.directory.tree.item? l = some node ∨ e.directory.writable job.log = .ok l) ∧
    ∀ outcome, e.answer = .ok outcome →
      ∃ d' log status,
        e.started = some d'.tree ∧ d'.location = d.location ∧
        s.runner d' log (job.shellCommand c.common.access c.common.loginShell) = .ok (status, e.directory.tree) ∧
        (∀ folder ∈ job.folders, d'.Holds folder) ∧ (∀ folder, job.log.parent? = some folder → d'.Holds folder) ∧
        (d'.writable job.log = .ok log ∧ ∃ parent name, log = parent ++ [name] ∧ d'.tree.isDirectory parent = true) ∧
        ((∃ kind, d.tree.at? log = some (.device kind)) ∨
          d'.tree.file? log = some (Text.bytes (c.render ++ "\n" ++ job.command ++ "\n\n")) ∧
          e.directory.tree.file? log =
            some (Text.bytes (c.render ++ "\n" ++ job.command ++ "\n\n") ++ output d' log)) ∧
        (outcome = .succeeded ↔ status = .exited 0) ∧
        ∀ exitCode, outcome = .failed exitCode ↔
          (∃ code : Nat, code ≠ 0 ∧ status = .exited code ∧ exitCode = some (code : Int)) ∨
            ∃ signal, status = .killed signal ∧ exitCode = none := by
  intro e
  rcases execute_cases s c job d with ⟨d', reason, habandoned, hrefused, halone⟩ |
    ⟨d', log, status, tree, hbegun, hrun, hended⟩
  · have he : e = refused d' reason := hrefused
    constructor
    · intro fault hfault
      rw [he] at hfault ⊢
      obtain rfl : Fault.system reason = fault := Except.error.inj hfault
      exact ⟨rfl, ⟨reason, rfl, halone.trans hrefused⟩, fun l node hnode => habandoned.item? hnode⟩
    · intro outcome houtcome
      rw [he] at houtcome
      cases houtcome
  · have he : e = ⟨{ d' with tree }, some d'.tree, .ok status.outcome⟩ := hended
    constructor
    · intro fault hfault
      rw [he] at hfault
      cases hfault
    · intro outcome houtcome
      rw [he] at houtcome ⊢
      obtain rfl : status.outcome = outcome := Except.ok.inj houtcome
      refine ⟨d', log, status, rfl, hbegun.eq_location, hrun, fun folder hfolder => ?_, fun folder hfolder => ?_,
        ⟨hbegun.writable, hbegun.exists_parent⟩, ?_, outcome_eq_succeeded, fun _ => outcome_eq_failed⟩
      · exact hbegun.holds (List.mem_append_left _ hfolder)
      · exact hbegun.holds (List.mem_append_right _ (by simp [hfolder]))
      · exact hbegun.file?.imp_right fun hfile => ⟨hfile, happends d' log status tree _ hrun hfile⟩

/-! ### samples -/

/-- A job that prints a line and then fails; its log is to lie at the given path. -/
def sampleJob (log : Path) : Job where
  host := ⟨"n1", "n1.net"⟩
  jobClass := .command
  place := .control
  command := "echo hi; exit 3"
  log := log
  folders := [⟨"out"⟩]

def sampleRunner : CommandRunner := fun d log _ =>
  match d.tree.at? log with
  | some (.file bytes isProgram) => .ok (.exited 3, d.tree.put log (.file (bytes ++ Text.bytes "hi\n") isProgram))
  | _ => .ok (.exited 3, d.tree)

/-- A directory with an old log and with a device. -/
def sampleDirectory : Directory where
  tree := ⟨[("dev", .directory [("null", .device .null)]),
    ("logs", .directory [("n1", .file (Text.bytes "old log\n") false)])]⟩
  location := []

def sampleSystem : System := .ofRunner sampleRunner

theorem appends_sampleRunner (command : String) : sampleRunner.Appends command fun _ _ => Text.bytes "hi\n" := by
  intro d log status tree bytes hrun hfile
  obtain ⟨isProgram, hnode⟩ := FileTree.file?_eq_some.mp hfile
  simp only [sampleRunner, hnode, Except.ok.injEq, Prod.mk.injEq] at hrun
  obtain ⟨-, rfl⟩ := hrun
  rcases List.eq_nil_or_concat' log with rfl | ⟨parent, name, rfl⟩
  · cases hnode
  · have hparent : d.tree.isDirectory parent = true := by
      refine @FileTree.isDirectory_of_append d.tree parent name [] ?_
      rw [hnode]
      exact Option.some_ne_none _
    have hput := FileTree.item?_put_self hparent name (.file (bytes ++ Text.bytes "hi\n") isProgram)
    exact FileTree.file?_eq_some.mpr ⟨isProgram, (FileTree.at?_eq_of_item? rfl).mp hput⟩

/-- The old log gives way to the header and the output of the command, which fails.  Where a file is in the place of the
folder of the log, nothing is started and the old log stays; and nothing is started either where there is room for the
first bytes of the header only. -/
theorem execute_log_sample :
    (sampleRunner.Appends "echo hi; exit 3" fun _ _ => Text.bytes "hi\n") ∧
    (execute sampleSystem Plan.sampleConfig (sampleJob ⟨"logs/n1"⟩) sampleDirectory).directory.tree.file?
        ["logs", "n1"] =
      some (Text.bytes (Plan.sampleConfig.render ++ "\n" ++ "echo hi; exit 3" ++ "\n\n") ++ Text.bytes "hi\n") ∧
    (execute sampleSystem Plan.sampleConfig (sampleJob ⟨"logs/n1/n1"⟩) sampleDirectory).started = none ∧
    (execute { sampleSystem with shortage := fun _ _ _ => some (4, .noSpace) } Plan.sampleConfig (sampleJob ⟨"logs/n1"⟩)
      sampleDirectory).started = none := by
  obtain ⟨d', log, status, hstarted, hlocation, -, -, -, ⟨hwritable, -⟩, hlog, -⟩ :=
    (execute_log sampleSystem _ Plan.sampleConfig (sampleJob ⟨"logs/n1"⟩) sampleDirectory
      (appends_sampleRunner _)).2 (.failed (some 3)) (by decide +kernel)
  have hrefused := (execute_log sampleSystem _ Plan.sampleConfig (sampleJob ⟨"logs/n1/n1"⟩) sampleDirectory
    (appends_sampleRunner _)).1 (.system .alreadyExists) (by decide +kernel)
  have hfull := (execute_log { sampleSystem with shortage := fun _ _ _ => some (4, .noSpace) } _ Plan.sampleConfig
    (sampleJob ⟨"logs/n1"⟩) sampleDirectory (appends_sampleRunner _)).1 (.system .noSpace) (by decide +kernel)
  have hplace : (execute sampleSystem Plan.sampleConfig (sampleJob ⟨"logs/n1"⟩) sampleDirectory).started.map
      (fun tree => (Directory.mk tree []).writable ⟨"logs/n1"⟩) = some (.ok ["logs", "n1"]) := by decide +kernel
  obtain rfl : log = ["logs", "n1"] := by
    obtain ⟨tree, location⟩ := d'
    obtain rfl : location = [] := hlocation
    rw [hstarted, Option.map_some, Option.some_inj] at hplace
    exact Except.ok.inj (hwritable.symm.trans hplace)
  refine ⟨appends_sampleRunner _, ?_, hrefused.1, hfull.1⟩
  rcases hlog with ⟨kind, hdevice⟩ | ⟨-, hfile⟩
  · cases hdevice
  · exact hfile

/-- A log that is a device holds no header, and the empty path among the folders of a job is not made. -/
theorem execute_log_device :
    (execute sampleSystem Plan.sampleConfig (sampleJob ⟨"/dev/null"⟩) sampleDirectory).answer =
      .ok (.failed (some 3)) ∧
    (∀ output, (execute sampleSystem Plan.sampleConfig (sampleJob ⟨"/dev/null"⟩) sampleDirectory).directory.read
        ⟨"/dev/null"⟩ ≠
      .ok (Text.bytes (Plan.sampleConfig.render ++ "\n" ++ "echo hi; exit 3" ++ "\n\n") ++ output)) ∧
    (execute sampleSystem Plan.sampleConfig { sampleJob ⟨"logs/n1"⟩ with folders := [⟨""⟩] } sampleDirectory).answer =
      .ok (.failed (some 3)) ∧
    (execute sampleSystem Plan.sampleConfig { sampleJob ⟨"logs/n1"⟩ with folders := [⟨""⟩] }
      sampleDirectory).directory.isDirectory ⟨""⟩ = false := by
  refine ⟨by decide +kernel, fun output hread => ?_, by decide +kernel, by decide +kernel⟩
  have hempty : (execute sampleSystem Plan.sampleConfig (sampleJob ⟨"/dev/null"⟩) sampleDirectory).directory.read
      ⟨"/dev/null"⟩ = .ok [] := by decide +kernel
  rw [hempty, Except.ok.injEq] at hread
  have hheader : Text.bytes (Plan.sampleConfig.render ++ "\n" ++ "echo hi; exit 3" ++ "\n\n") ≠ [] := by decide +kernel
  exact hheader (List.append_eq_nil_iff.mp hread.symm).1

end Execution

end Fleet
