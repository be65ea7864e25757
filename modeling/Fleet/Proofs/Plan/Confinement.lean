import Fleet.Proofs.Plan.Checks
import Fleet.Proofs.Plan.Logs

/-!
# Where a run writes

Logs belong below the configured root of the logs, and fetched files below the configured directory for them, each
under names of the user's: the class, the experiment, the testbed, the host.  These texts are joined as they are, so a
path lies where it belongs exactly if each of them is a name (`confined_paths`).  A text that is none takes the path
elsewhere: an absolute one drops the configured directory altogether, and one with `..` in it leads back out
(`stray_paths`).
-/

namespace Fleet

/-- The components of a path below a root: some names, the testbed, if it has a name, and a file. -/
def Path.below (root : Path) (names : List String) (testbed file : String) : List Path.Component :=
  root.components ++ (names ++ (if testbed = "" then [] else [testbed]) ++ [file]).map .name

/-- Names, a testbed and the file of a host lie below a root exactly if all of them are names. -/
theorem Path.components_below_iff (root : Path) (names : List String) {testbed : String} (label suffix : String)
    (htestbed : testbed = "" ∨ IsName testbed) (hsuffix : '/' ∉ suffix.toList) (hlength : 2 < suffix.length) :
    ((names ++ [testbed, label ++ suffix]).foldl child root).components = root.below names testbed (label ++ suffix) ↔
      (∀ name ∈ names, IsName name) ∧ '/' ∉ label.toList := by
  constructor
  · intro heq
    have hmem : ∀ name ∈ names ++ [label ++ suffix], IsName name := by
      intro name hname
      have hpart : .name name ∈ root.below names testbed (label ++ suffix) := by
        refine List.mem_append_right _ (List.mem_map_of_mem ?_)
        rcases List.mem_append.mp hname with hname | hname
        · exact List.mem_append_left _ (List.mem_append_left _ hname)
        · exact List.mem_append_right _ hname
      rw [← heq] at hpart
      exact isName_of_mem hpart
    refine ⟨fun name hname => hmem name (List.mem_append_left _ hname), fun hslash => ?_⟩
    refine (hmem (label ++ suffix) (by simp)).2.2.2 ?_
    rw [String.toList_append]
    exact List.mem_append_left _ hslash
  · rintro ⟨hnames, hlabel⟩
    have hfile : IsName (label ++ suffix) := isName_append hlabel hsuffix hlength
    have hfilter : names.filter (· ≠ "") = names :=
      List.filter_eq_self.mpr fun name hname => by simpa using (hnames name hname).1
    rw [components_foldl_child, below, List.filter_append, hfilter]
    · rcases htestbed with rfl | htestbed
      · simp [hfile.1]
      · simp [hfile.1, htestbed.1]
    · intro name hname
      rcases List.mem_append.mp hname with hname | hname
      · exact .inr (hnames name hname)
      · rcases List.mem_pair.mp hname with rfl | rfl
        · exact htestbed
        · exact .inr hfile

namespace Plan

variable {c : Config} {r : Request} {logbook : Logbook} {hosts : List Host} {phases : List Phase} {phase : Phase}
  {nodeText : Except SystemFault String} {stamp : String} {plan : Plan}

/-! ### the folders of jobs -/

/-- The folders of a phase's jobs: one for each host where files are fetched, and none elsewhere. -/
def FoldersPlanned (c : Config) (r : Request) (stamp testbed : String) (phase : Phase) : Prop :=
  (phase.jobClass ≠ .data → ∀ job ∈ phase.allJobs, job.folders = []) ∧
  (phase.jobClass = .data → ∃ root name, c.dataDirectory = some root ∧ r.experiment = some name ∧
    ∀ job ∈ phase.allJobs, job.folders = [dataFolder root stamp name testbed job.host])

theorem foldersPlanned_of_nil {testbed : String} (hclass : phase.jobClass ≠ .data)
    (hnil : ∀ job ∈ phase.allJobs, job.folders = []) : FoldersPlanned c r stamp testbed phase :=
  ⟨fun _ => hnil, fun hdata => absurd hdata hclass⟩

theorem foldersPlanned_planSync {testbed : String} (h : planSync c logbook r hosts = .ok phases)
    (hphase : phase ∈ phases) : FoldersPlanned c r stamp testbed phase := by
  unfold planSync at h
  split at h
  · split at h
    · cases h
      rw [List.mem_singleton.mp hphase]
      refine foldersPlanned_of_nil nofun fun job hjob => ?_
      obtain ⟨host, -, rfl⟩ := List.mem_map.mp hjob
      rfl
    · cases h
  · cases h
    cases hphase

theorem foldersPlanned_planData (h : planData c logbook r stamp hosts = .ok phases) (hphase : phase ∈ phases) :
    FoldersPlanned c r stamp logbook.testbed phase := by
  unfold planData at h
  split at h
  · cases h
    cases hphase
  · split at h
    · cases h
    · cases h
    · rename_i name root hname hroot
      cases h
      rw [List.mem_singleton.mp hphase]
      refine ⟨fun hclass => absurd rfl hclass, fun _ => ⟨root, name, hroot, hname, fun job hjob => ?_⟩⟩
      obtain ⟨host, -, rfl⟩ := List.mem_map.mp hjob
      rfl

theorem foldersPlanned_planCommand {testbed : String} (hphase : phase ∈ planCommand logbook r hosts) :
    FoldersPlanned c r stamp testbed phase := by
  unfold planCommand at hphase
  split at hphase
  · rw [List.mem_singleton.mp hphase]
    refine foldersPlanned_of_nil (fun h => by cases h) fun job hjob => ?_
    obtain ⟨host, -, rfl⟩ := List.mem_map.mp hjob
    rfl
  · cases hphase

theorem foldersPlanned_experimentPhase (l : Launch) (logbook : Logbook) (hosts : List Host) (skip : List String)
    {testbed : String} : FoldersPlanned c r stamp testbed (experimentPhase l logbook hosts skip) := by
  refine foldersPlanned_of_nil (by rw [experimentPhase_jobClass]; exact nofun) fun job hjob => ?_
  rcases List.mem_append.mp hjob with hjob | hjob
  · obtain ⟨step, hstep, rfl⟩ := List.mem_map.mp hjob
    obtain ⟨host, -, hstep⟩ := leader_of_experimentPhase (Option.mem_toList.mp hstep)
    obtain ⟨leader, -, rfl⟩ := Option.map_eq_some_iff.mp hstep
    rfl
  · rw [experimentPhase_jobs] at hjob
    obtain ⟨x, -, rfl⟩ := List.mem_map.mp hjob
    rfl

theorem foldersPlanned_of_make (h : make c r nodeText stamp = .ok plan) (hphase : phase ∈ plan.phases) :
    FoldersPlanned plan.config r stamp plan.testbed phase := by
  obtain ⟨text, entries, sync, data, experiment, made⟩ := made_of_make h
  rw [made.phases_eq] at hphase
  simp only [List.mem_append] at hphase
  rcases hphase with ((hphase | hphase) | hphase) | hphase
  · exact foldersPlanned_planSync made.sync_eq hphase
  · have hplanned := foldersPlanned_planData made.data_eq hphase
    exact hplanned
  · exact foldersPlanned_planCommand hphase
  · obtain ⟨name, l, -, -, rfl⟩ := mem_planExperiment made.experiment_eq hphase
    exact foldersPlanned_experimentPhase l _ _ _

/-! ### the configured directories -/

theorem Effective.directories {resolved : Config} (h : Effective c r resolved) :
    resolved.common = c.common ∧ resolved.dataDirectory = c.dataDirectory := by
  refine ⟨?_, h.sections.2⟩
  by_cases hnone : r.overrides = []
  · rw [h.unchanged hnone]
  · obtain ⟨name, -, hoverridden⟩ := h.changed hnone
    obtain ⟨e, args, -, -, rfl⟩ := hoverridden.changed hnone
    rfl

/-- **Where a run writes.**  The log of a job lies below the root of the logs, in the directories of its class and of
the testbed and named after its host, exactly if the class is a name and the host's label has no slash.  Only jobs that
fetch files have a folder, one each, and it lies below the directory for such files, in those of the time stamp, the
experiment and the testbed and named after the host, exactly if the time stamp and the experiment are names and the
label has no slash. -/
theorem confined_paths (h : make c r nodeText stamp = .ok plan) :
    (∀ job ∈ plan.allJobs,
      job.log.components =
          c.common.logDirectory.below [job.jobClass.text] (testbedLabel r.nodeFile) (job.host.label ++ ".log") ↔
        Path.IsName job.jobClass.text ∧ '/' ∉ job.host.label.toList) ∧
    ∀ phase ∈ plan.phases, ∀ job ∈ phase.allJobs,
      (phase.jobClass ≠ .data → job.folders = []) ∧
      (phase.jobClass = .data → ∃ root name folder, c.dataDirectory = some root ∧ r.experiment = some name ∧
        job.folders = [folder] ∧
        (folder.components = root.below [stamp, name] (testbedLabel r.nodeFile) (job.host.label ++ ".data") ↔
          (Path.IsName stamp ∧ Path.IsName name) ∧ '/' ∉ job.host.label.toList)) := by
  obtain ⟨text, entries, sync, data, experiment, made⟩ := made_of_make h
  obtain ⟨hcommon, hdirectory⟩ := (effective_of_resolveConfig made.config_eq).directories
  have htestbed := testbedLabel_eq_empty_or_isName r.nodeFile
  refine ⟨fun job hjob => ?_, fun phase hphase job hjob => ⟨fun hclass => ?_, fun hclass => ?_⟩⟩
  · have hiff := Path.components_below_iff c.common.logDirectory [job.jobClass.text] job.host.label ".log" htestbed
      (by decide) (by decide)
    rw [List.forall_mem_singleton] at hiff
    rw [(log_of_mem h hjob).1, book, made.testbed_eq, hcommon]
    exact hiff
  · exact (foldersPlanned_of_make h hphase).1 hclass job hjob
  · obtain ⟨root, name, hroot, hname, hfolders⟩ := (foldersPlanned_of_make h hphase).2 hclass
    rw [hdirectory] at hroot
    rw [made.testbed_eq] at hfolders
    refine ⟨root, name, _, hroot, hname, hfolders job hjob, ?_⟩
    have hiff := Path.components_below_iff root [stamp, name] job.host.label ".data" htestbed (by decide) (by decide)
    rw [List.forall_mem_cons, List.forall_mem_singleton] at hiff
    exact hiff

/-- A configuration with places for logs and for fetched files. -/
def placesConfig : Config := { sampleConfig with dataDirectory := some ⟨"data"⟩ }

/-- A request for the files of an experiment and for a command. -/
def placesRequest (experiment : String) : Request :=
  { sampleRequest with remoteDirectory := some "/var/out", command := some "uptime", experiment := some experiment }

theorem confined_paths_sample :
    ∃ plan data, make placesConfig (placesRequest "bench") (.ok sampleNodes) "20240229120000" = .ok plan ∧
      plan.allJobs.length = 6 ∧
      (∀ job ∈ plan.allJobs, job.log.components =
        [.name "logs", .name job.jobClass.text, .name "nodes", .name (job.host.label ++ ".log")]) ∧
      data ∈ plan.phases ∧ data.jobClass = .data ∧ data.jobs.length = 3 ∧
      ∀ job ∈ data.allJobs, ∃ folder, job.folders = [folder] ∧ folder.components =
        [.name "data", .name "20240229120000", .name "bench", .name "nodes", .name (job.host.label ++ ".data")] := by
  have hsample : ∃ plan data, make placesConfig (placesRequest "bench") (.ok sampleNodes) "20240229120000" = .ok plan ∧
      plan.allJobs.length = 6 ∧ plan.phases.head? = some data ∧ data.jobClass = .data ∧ data.jobs.length = 3 ∧
      plan.roster.hosts = [⟨"n1", "d.utah.cloudlab.us"⟩, ⟨"n2", "b.utah.cloudlab.us"⟩, ⟨"n3", "c.apt.emulab.net"⟩] ∧
      plan.phases.map (·.jobClass) = [.data, .command] :=
    ⟨_, _, rfl, rfl, rfl, rfl, rfl, rfl, rfl⟩
  obtain ⟨plan, data, hplan, hlength, hhead, hclass, hjobs, hhosts, hclasses⟩ := hsample
  have hdata : data ∈ plan.phases := List.mem_of_head? hhead
  have hphases : ∀ phase ∈ plan.phases, Path.IsName phase.jobClass.text := fun phase hphase => by
    have hmem : phase.jobClass ∈ plan.phases.map (·.jobClass) := List.mem_map_of_mem hphase
    rw [hclasses] at hmem
    have hname : ∀ x ∈ [JobClass.data, .command], Path.IsName x.text := by decide
    exact hname _ hmem
  have hnames : ∀ job ∈ plan.allJobs, Path.IsName job.jobClass.text :=
    forall_jobClass (P := fun x => Path.IsName x.text) hplan (by decide) hphases
  have hlabels : ∀ job ∈ plan.allJobs, '/' ∉ job.host.label.toList := fun job hjob => by
    have hhost := (log_of_mem hplan hjob).2
    rw [hhosts] at hhost
    have hslash : ∀ host ∈ [Host.mk "n1" "d.utah.cloudlab.us", ⟨"n2", "b.utah.cloudlab.us"⟩,
        ⟨"n3", "c.apt.emulab.net"⟩], '/' ∉ host.label.toList := by decide
    exact hslash _ hhost
  obtain ⟨hlogs, hfolders⟩ := confined_paths hplan
  refine ⟨plan, data, hplan, hlength, fun job hjob => ?_, hdata, hclass, hjobs, fun job hjob => ?_⟩
  · exact (hlogs job hjob).mpr ⟨hnames job hjob, hlabels job hjob⟩
  · obtain ⟨root, name, folder, hroot, hname, hfolder, hiff⟩ := (hfolders data hdata job hjob).2 hclass
    obtain rfl : (⟨"data"⟩ : Path) = root := Option.some.inj hroot
    obtain rfl : "bench" = name := Option.some.inj hname
    refine ⟨folder, hfolder, hiff.mpr ⟨by decide, hlabels job ?_⟩⟩
    exact List.mem_flatMap.mpr ⟨data, hdata, hjob⟩

/-- A configuration of an experiment whose name is an absolute path. -/
def strayConfig : Config :=
  { placesConfig with
    experiments := .ofList [("/srv/bench",
      { binDirectory := some "/opt", bin := some "bench", leader := none, leaderCommand := none, leaderDelay := none
        leaderPort := none, args := some .empty, leaderArgs := .empty })] }

/-- **Paths that lead elsewhere.**  The log of an experiment with an absolute name is not below the root of the logs,
and neither is that of a host with an absolute id.  Files of an experiment whose name has `..` in it are kept outside
the directory for fetched files. -/
theorem stray_paths :
    (∃ plan job, make strayConfig { sampleRequest with experiment := some "/srv/bench", skip := [] }
        (.ok "n1,a,m510\n") "1" = .ok plan ∧
      plan.allJobs = [job] ∧ job.log = ⟨"/srv/bench/nodes/n1.a.utah.cloudlab.us.log"⟩ ∧
      job.log.components ≠
        (Path.mk "logs").below [job.jobClass.text] (testbedLabel ⟨"nodes.csv"⟩) (job.host.label ++ ".log") ∧
      ¬ (Path.mk "logs").components <+: job.log.components) ∧
    ∃ plan, make placesConfig { placesRequest "../../keep" with command := none }
        (.ok "n1,a,m510\n/tmp/n2,b,m510\n") "1" = .ok plan ∧
      plan.allJobs.map (fun job => (job.log, job.folders)) =
        [(⟨"logs/data/nodes/n1.a.utah.cloudlab.us.log"⟩,
            [⟨"data/1/../../keep/nodes/n1.a.utah.cloudlab.us.data"⟩]),
          (⟨"/tmp/n2.b.utah.cloudlab.us.log"⟩, [⟨"/tmp/n2.b.utah.cloudlab.us.data"⟩])] ∧
      (Path.mk "data/1/../../keep/nodes/n1.a.utah.cloudlab.us.data").components =
        [.name "data", .name "1", .up, .up, .name "keep", .name "nodes", .name "n1.a.utah.cloudlab.us.data"] :=
  ⟨⟨_, _, rfl, rfl, rfl, by decide, by decide⟩, _, rfl, rfl, by decide⟩

end Plan

end Fleet
