import Fleet.Proofs.Path
import Fleet.Proofs.Plan.Phases

/-!
# Whose log is whose

A log's path names the class of its job, the testbed and the host, and these names are glued together from texts of the
user's.  As long as every one of them is a name, the path is the root of the logs followed by the three of them
(`components_logPath`).  Then two jobs of a plan share a log exactly if their classes have one text and their hosts one
label: the class and the host themselves are never the same for two jobs (`nodup_jobs`).
-/

namespace Fleet

/-- What the log of a host is named after. -/
def Host.label (h : Host) : String := h.id ++ "." ++ h.hostname

namespace JobClass

/-- The texts of the classes that are not an experiment's. -/
def reserved : List String := [sync.text, data.text, command.text, leader.text]

/-- The class is not that of an experiment with the name of another class. -/
def IsClear (x : JobClass) : Prop := ∀ name, x = .experiment name → name ∉ reserved

/-- The class that a text is read as: an experiment's only if no other class has it. -/
def ofText : String → JobClass
  | "sync" => .sync
  | "data" => .data
  | "cmd" => .command
  | "leader" => .leader
  | name => .experiment name

theorem ofText_text {x : JobClass} (hx : x.IsClear) : ofText x.text = x := by
  cases x with
  | experiment name =>
    have hname : name ∉ reserved := hx name rfl
    rw [text]
    unfold ofText
    split
    · exact absurd (by decide) hname
    · exact absurd (by decide) hname
    · exact absurd (by decide) hname
    · exact absurd (by decide) hname
    · rfl
  | _ => rfl

theorem eq_of_text {x y : JobClass} (hx : x.IsClear) (hy : y.IsClear) (heq : x.text = y.text) : x = y := by
  rw [← ofText_text hx, heq, ofText_text hy]

end JobClass

/-! ### the names in a path -/

theorem testbedLabel_eq_empty_or_isName (nodeFile : Path) :
    testbedLabel nodeFile = "" ∨ Path.IsName (testbedLabel nodeFile) := by
  unfold testbedLabel
  split
  · rename_i name hname
    have hdot : ∀ c ∈ name.toList.takeWhile (· != '.'), c ≠ '.' := fun c hc => by
      simpa using List.mem_takeWhile_imp hc
    have hslash : '/' ∉ name.toList.takeWhile (· != '.') := fun hc =>
      Path.not_mem_fileName hname ((List.takeWhile_sublist _).subset hc)
    have hne : ∀ t : String, '.' ∈ t.toList → String.ofList (name.toList.takeWhile (· != '.')) ≠ t := by
      rintro t ht rfl
      rw [String.toList_ofList] at ht
      exact hdot '.' ht rfl
    by_cases hempty : String.ofList (name.toList.takeWhile (· != '.')) = ""
    · exact .inl hempty
    · exact .inr ⟨hempty, hne "." (by decide), hne ".." (by decide), by rwa [String.toList_ofList]⟩
  · exact .inl rfl

/-- **The components of a log's path.** -/
theorem Logbook.components_logPath {book : Logbook} {jobClass : JobClass} {id hostname : String}
    (hclass : Path.IsName jobClass.text) (htestbed : book.testbed = "" ∨ Path.IsName book.testbed)
    (hhost : '/' ∉ (id ++ "." ++ hostname).toList) :
    (book.logPath jobClass id hostname).components =
      book.root.components ++ .name jobClass.text ::
        ((if book.testbed = "" then [] else [.name book.testbed]) ++ [.name (id ++ "." ++ hostname ++ ".log")]) := by
  rw [logPath, Path.components_child_name (Path.isName_append hhost (by decide) (by decide))]
  rcases htestbed with htestbed | htestbed
  · rw [htestbed, Path.components_child_empty, Path.components_child_name hclass, if_pos rfl]
    simp
  · rw [Path.components_child_name htestbed, Path.components_child_name hclass, if_neg htestbed.1]
    simp

/-- Two logs of one logbook are one file exactly if their classes have one text and their hosts one label. -/
theorem Logbook.components_logPath_inj {book : Logbook} {x y : JobClass} {h k : Host}
    (htestbed : book.testbed = "" ∨ Path.IsName book.testbed) (hx : Path.IsName x.text) (hy : Path.IsName y.text)
    (hh : '/' ∉ h.label.toList) (hk : '/' ∉ k.label.toList) :
    (book.logPath x h.id h.hostname).components = (book.logPath y k.id k.hostname).components ↔
      x.text = y.text ∧ h.label = k.label := by
  rw [components_logPath hx htestbed hh, components_logPath hy htestbed hk]
  simp [Host.label]

theorem Host.id_of_label {h k : Host} (hh : '.' ∉ h.id.toList) (hk : '.' ∉ k.id.toList) (heq : h.label = k.label) :
    h.id = k.id := by
  have hcut : ∀ x : Host, '.' ∉ x.id.toList → x.label.toList.takeWhile (· != '.') = x.id.toList := by
    intro x hx
    have hlabel : x.label.toList = x.id.toList ++ '.' :: x.hostname.toList := by simp [label]
    have hid : ∀ c ∈ x.id.toList, (c != '.') = true := fun c hc => by
      rw [bne_iff_ne]
      rintro rfl
      exact hx hc
    rw [hlabel, List.takeWhile_append_of_pos hid, List.takeWhile_cons_of_neg (by simp), List.append_nil]
  have hid : h.id.toList = k.id.toList := by rw [← hcut h hh, ← hcut k hk, heq]
  exact String.toList_inj.mp hid

namespace Plan

variable {c : Config} {r : Request} {logbook : Logbook} {hosts : List Host} {nodeText : Except SystemFault String}
  {stamp : String} {plan : Plan}

/-! ### no two jobs of one class go to one host -/

theorem leader_notMem_agenda (r : Request) (hosts active : List Host) :
    .leader ∉ (agenda r hosts active).map (·.1) := by
  unfold agenda
  cases r.sync <;> cases r.remoteDirectory <;> cases r.command <;> cases r.experiment <;> simp

theorem map_jobClass (h : make c r nodeText stamp = .ok plan) :
    plan.phases.map (·.jobClass) = (agenda r plan.roster.hosts (plan.roster.active r.limit)).map (·.1) := by
  rw [← map_contacts h, List.map_map]
  rfl

theorem jobClass_ne_leader (h : make c r nodeText stamp = .ok plan) {phase : Phase} (hphase : phase ∈ plan.phases) :
    phase.jobClass ≠ .leader := by
  have hmem : phase.jobClass ∈ plan.phases.map (·.jobClass) := List.mem_map_of_mem hphase
  rw [map_jobClass h] at hmem
  intro hleader
  rw [hleader] at hmem
  exact leader_notMem_agenda _ _ _ hmem

theorem pairwise_jobClass (h : make c r nodeText stamp = .ok plan) :
    plan.phases.Pairwise fun x y => x.jobClass ≠ y.jobClass := by
  have hnodup := nodup_agenda r plan.roster.hosts (plan.roster.active r.limit)
  rw [← map_jobClass h] at hnodup
  exact List.pairwise_map.mp hnodup

theorem Planned.jobClass_of_mem {phase : Phase} (hplanned : Planned r logbook hosts phase) {job : Job}
    (hjob : job ∈ phase.allJobs) :
    job.jobClass = phase.jobClass ∨
      job.jobClass = .leader ∧ ∃ name, r.experiment = some name ∧ phase.jobClass = .experiment name := by
  rcases List.mem_append.mp hjob with hjob | hjob
  · obtain ⟨step, hstep, rfl⟩ := List.mem_map.mp hjob
    exact .inr (hplanned.leader step (Option.mem_toList.mp hstep))
  · exact .inl (hplanned.jobClass job hjob)

theorem Planned.nodup_allJobs {phase : Phase} (hplanned : Planned r logbook hosts phase)
    (hclass : phase.jobClass ≠ .leader) : (phase.allJobs.map fun job => (job.jobClass, job.host.id)).Nodup := by
  have hjobs : (phase.jobs.map fun job => (job.jobClass, job.host.id)).Nodup := by
    refine List.Nodup.of_map (·.2) ?_
    rw [List.map_map]
    exact hplanned.distinct
  rw [Phase.allJobs]
  cases hleader : phase.leader with
  | none => exact hjobs
  | some step =>
    have hstep : step.job.jobClass = .leader := (hplanned.leader step hleader).1
    refine List.nodup_cons.mpr ⟨fun hmem => hclass ?_, hjobs⟩
    obtain ⟨job, hjob, heq⟩ := List.mem_map.mp hmem
    rw [← hplanned.jobClass job hjob, ← hstep]
    exact congrArg Prod.fst heq

/-- **No two jobs of a plan have both one class and one host.** -/
theorem nodup_jobs (h : make c r nodeText stamp = .ok plan) :
    (plan.allJobs.map fun job => (job.jobClass, job.host.id)).Nodup := by
  rw [allJobs, List.map_flatMap, List.nodup_flatMap]
  refine ⟨fun phase hphase => (planned_of_make h hphase).1.nodup_allJobs (jobClass_ne_leader h hphase), ?_⟩
  refine (pairwise_jobClass h).imp_of_mem fun {x y} hx hy hne => ?_
  intro key hkey hkey'
  obtain ⟨job, hjob, rfl⟩ := List.mem_map.mp hkey
  obtain ⟨job', hjob', heq⟩ := List.mem_map.mp hkey'
  have hclass : job'.jobClass = job.jobClass := congrArg Prod.fst heq
  -- a job of the leader's class tells that the phase is the experiment's, and the plan has one of these
  rcases (planned_of_make h hx).1.jobClass_of_mem hjob with hown | ⟨hlead, name, hname, hx'⟩
  · rcases (planned_of_make h hy).1.jobClass_of_mem hjob' with hown' | ⟨hlead', -⟩
    · exact hne (by rw [← hown, ← hown', hclass])
    · exact jobClass_ne_leader h hx (by rw [← hown, ← hclass, hlead'])
  · rcases (planned_of_make h hy).1.jobClass_of_mem hjob' with hown' | ⟨-, name', hname', hy'⟩
    · exact jobClass_ne_leader h hy (by rw [← hown', hclass, hlead])
    · rw [hname] at hname'
      cases hname'
      exact hne (by rw [hx', hy'])

/-! ### whose log is whose -/

/-- What holds of the class of the leader steps and of those of the phases holds of every job's class. -/
theorem forall_jobClass {P : JobClass → Prop} (h : make c r nodeText stamp = .ok plan) (hleader : P .leader)
    (hphases : ∀ phase ∈ plan.phases, P phase.jobClass) : ∀ job ∈ plan.allJobs, P job.jobClass := by
  intro job hjob
  obtain ⟨phase, hphase, hjob⟩ := List.mem_flatMap.mp hjob
  rcases (planned_of_make h hphase).1.jobClass_of_mem hjob with hclass | ⟨hclass, -⟩
  · rw [hclass]
    exact hphases phase hphase
  · rw [hclass]
    exact hleader

theorem log_of_mem (h : make c r nodeText stamp = .ok plan) {job : Job} (hjob : job ∈ plan.allJobs) :
    job.log = plan.book.logPath job.jobClass job.host.id job.host.hostname ∧ job.host ∈ plan.roster.hosts := by
  obtain ⟨phase, hphase, hjob⟩ := List.mem_flatMap.mp hjob
  have hplanned := (planned_of_make h hphase).1
  exact ⟨hplanned.log job hjob, (plan.audience_sublist r phase).subset (hplanned.host job hjob)⟩

/-- Two jobs of a plan share a log exactly if their classes have one text and their hosts one label. -/
theorem log_components_inj (h : make c r nodeText stamp = .ok plan)
    (hhosts : ∀ host ∈ plan.roster.hosts, '/' ∉ host.label.toList)
    (hphases : ∀ phase ∈ plan.phases, Path.IsName phase.jobClass.text) {x y : Job} (hx : x ∈ plan.allJobs)
    (hy : y ∈ plan.allJobs) :
    x.log.components = y.log.components ↔ x.jobClass.text = y.jobClass.text ∧ x.host.label = y.host.label := by
  have htestbed : plan.book.testbed = "" ∨ Path.IsName plan.book.testbed := by
    obtain ⟨text, entries, sync, data, experiment, made⟩ := made_of_make h
    rw [book, made.testbed_eq]
    exact testbedLabel_eq_empty_or_isName r.nodeFile
  have hname : ∀ z ∈ plan.allJobs, Path.IsName z.jobClass.text :=
    forall_jobClass (P := fun x => Path.IsName x.text) h (by decide) hphases
  obtain ⟨hxlog, hxhost⟩ := log_of_mem h hx
  obtain ⟨hylog, hyhost⟩ := log_of_mem h hy
  rw [hxlog, hylog]
  exact Logbook.components_logPath_inj htestbed (hname x hx) (hname y hy) (hhosts _ hxhost) (hhosts _ hyhost)

/-- **Whose log is whose.**  Where every text is a name, the logs of a plan are different files exactly if no two jobs
have both one text for their classes and one label for their hosts.  They are if, moreover, no id has a dot and the
experiment is not named like another class. -/
theorem own_logs (h : make c r nodeText stamp = .ok plan)
    (hhosts : ∀ host ∈ plan.roster.hosts, '/' ∉ host.label.toList)
    (hphases : ∀ phase ∈ plan.phases, Path.IsName phase.jobClass.text) :
    ((plan.allJobs.map (·.log.components)).Nodup ↔
      (plan.allJobs.map fun job => (job.jobClass.text, job.host.label)).Nodup) ∧
    ((∀ host ∈ plan.roster.hosts, '.' ∉ host.id.toList) → (∀ phase ∈ plan.phases, phase.jobClass.IsClear) →
      (plan.allJobs.map (·.log.components)).Nodup) := by
  have hinj := fun {x y : Job} => log_components_inj (x := x) (y := y) h hhosts hphases
  refine ⟨?_, fun hids hclear => ?_⟩
  · rw [List.Nodup, List.pairwise_map, List.Nodup, List.pairwise_map]
    refine List.Pairwise.iff_of_mem fun {x y} hx hy => ?_
    rw [Ne, Ne, hinj hx hy, Prod.mk.injEq]
  · have hclearJob : ∀ z ∈ plan.allJobs, z.jobClass.IsClear := forall_jobClass h nofun hclear
    have hjobs := nodup_jobs h
    rw [List.Nodup, List.pairwise_map] at hjobs ⊢
    refine hjobs.imp_of_mem fun {x y} hx hy hne heq => hne ?_
    obtain ⟨htext, hlabel⟩ := (hinj hx hy).mp heq
    have hclass := JobClass.eq_of_text (hclearJob x hx) (hclearJob y hy) htext
    have hid := Host.id_of_label (hids _ (log_of_mem h hx).2) (hids _ (log_of_mem h hy).2) hlabel
    rw [hclass, hid]

theorem own_logs_sample :
    ∃ plan, make sampleConfig { sampleRequest with command := some "uptime" } (.ok sampleNodes) "" = .ok plan ∧
      plan.allJobs.length = 6 ∧ (plan.allJobs.map (·.log.components)).Nodup := by
  have hsample : ∃ plan, make sampleConfig { sampleRequest with command := some "uptime" } (.ok sampleNodes) "" =
        .ok plan ∧ plan.allJobs.length = 6 ∧
      plan.roster.hosts = [⟨"n1", "d.utah.cloudlab.us"⟩, ⟨"n2", "b.utah.cloudlab.us"⟩, ⟨"n3", "c.apt.emulab.net"⟩] ∧
      plan.phases.map (·.jobClass) = [.command, .experiment "bench"] :=
    ⟨_, rfl, rfl, rfl, rfl⟩
  obtain ⟨plan, hplan, hlength, hhosts, hphases⟩ := hsample
  have hclass : ∀ phase ∈ plan.phases, phase.jobClass ∈ [.command, .experiment "bench"] := by
    intro phase hphase
    rw [← hphases]
    exact List.mem_map_of_mem hphase
  refine ⟨plan, hplan, hlength, (own_logs hplan ?_ fun phase hphase => ?_).2 ?_ fun phase hphase => ?_⟩
  · rw [hhosts]
    decide
  · have hname : ∀ x ∈ [JobClass.command, .experiment "bench"], Path.IsName x.text := by decide
    exact hname _ (hclass phase hphase)
  · rw [hhosts]
    decide
  · rcases List.mem_pair.mp (hclass phase hphase) with hphase | hphase
    · rw [hphase]
      exact nofun
    · rw [hphase]
      rintro name ⟨⟩
      decide

/-- A configuration whose experiment is named like the class of the user's commands. -/
def clashConfig : Config :=
  { sampleConfig with
    experiments := .ofList [("cmd",
      { binDirectory := some "/opt", bin := some "bench", leader := none, leaderCommand := none, leaderDelay := none
        leaderPort := none, args := some .empty, leaderArgs := .empty })] }

def clashRequest : Request := { sampleRequest with command := some "uptime", experiment := some "cmd" }

/-- The text of a node file with two hosts of one label. -/
def clashNodes : String := "a,b.c,m510\na.b,c,m510\n"

/-- **Logs that are not their job's own.**  Two hosts have one label, and the experiment has the text of the command's
class: the four jobs of the plan, two of them at a time, have one log. -/
theorem shared_log :
    ∃ plan, make clashConfig clashRequest (.ok clashNodes) "" = .ok plan ∧
      (plan.allJobs.map fun job => (job.jobClass, job.host.id)) =
        [(.command, "a"), (.command, "a.b"), (.experiment "cmd", "a"), (.experiment "cmd", "a.b")] ∧
      plan.allJobs.map (·.log) = List.replicate 4 ⟨"logs/cmd/nodes/a.b.c.utah.cloudlab.us.log"⟩ ∧
      ¬ (plan.allJobs.map (·.log)).Nodup := by
  have hclash : ∃ plan, make clashConfig clashRequest (.ok clashNodes) "" = .ok plan ∧
      (plan.allJobs.map fun job => (job.jobClass, job.host.id)) =
        [(.command, "a"), (.command, "a.b"), (.experiment "cmd", "a"), (.experiment "cmd", "a.b")] ∧
      plan.allJobs.map (·.log) = List.replicate 4 ⟨"logs/cmd/nodes/a.b.c.utah.cloudlab.us.log"⟩ :=
    ⟨_, rfl, rfl, rfl⟩
  obtain ⟨plan, hplan, hjobs, hlogs⟩ := hclash
  refine ⟨plan, hplan, hjobs, hlogs, ?_⟩
  rw [hlogs]
  decide

end Plan

end Fleet
