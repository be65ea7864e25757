import Fleet.Proofs.Plan.Phases
import Fleet.Proofs.Shell.Calls

/-!
# What `rsync` is given

The commands that send and fetch files are lines of shell text.  As long as none of the texts that are put into them
means anything to a shell, `rsync` is called with the arguments that were planned, and it fetches into the directory
that is made for the job (`transfer_calls`).  Nothing in the commands quotes these texts, though: the name of an
experiment with a blank in it makes two words, and files are fetched elsewhere (`torn_folder`).
-/

namespace Fleet

open Shell (Written Calls commandLine)

namespace Transfer

/-- The words after `rsync` that send the local files to a host. -/
def sendWords (files : SyncSection) (access : Access) (hostname : String) : List Written :=
  let source := files.source.normal
  [.bare "-r", .bare "-e", .quoted access.ssh,
    .bare ("--exclude-from=" ++ (files.excludeFile.normalFrom source).text),
    .bare ("--files-from=" ++ (files.includeFile.normalFrom source).text), .bare "--progress", .bare "-uva",
    .bare (source.text ++ "/"), .bare (access.user ++ "@" ++ hostname ++ ":" ++ files.destination)]

/-- The words after `rsync` that fetch a directory of a host. -/
def fetchWords (access : Access) (hostname : String) (directory destination : Path) : List Written :=
  [.bare "-e", .quoted access.ssh, .bare "--progress", .bare "-uva",
    .bare (access.user ++ "@" ++ hostname ++ ":" ++ directory.normal.text ++ "/"), .bare (destination.text ++ "/")]

theorem sendCommand_eq (files : SyncSection) (access : Access) (hostname : String) :
    sendCommand files access hostname = commandLine "rsync" (sendWords files access hostname) := by
  unfold sendCommand sendWords
  simp only [Shell.commandLine_cons, Shell.commandLine_nil, Written.text]
  refine String.toList_inj.mp ?_
  simp [String.toList_append]

theorem fetchCommand_eq (access : Access) (hostname : String) (directory destination : Path) :
    fetchCommand access hostname directory destination =
      commandLine "rsync" (fetchWords access hostname directory destination) := by
  unfold fetchCommand fetchWords
  simp only [Shell.commandLine_cons, Shell.commandLine_nil, Written.text]
  refine String.toList_inj.mp ?_
  simp [String.toList_append]

theorem calls_rsync (words : List Written) (hsafe : ∀ w ∈ words, w.isSafe) :
    Calls (commandLine "rsync" words) ("rsync" :: words.map Written.value) :=
  Shell.calls_commandLine ⟨rfl, by decide, by decide, by decide⟩ rfl hsafe

end Transfer

namespace Plan

variable {c : Config} {r : Request} {nodeText : Except SystemFault String} {stamp : String} {plan : Plan}
  {phase : Phase}

theorem mem_of_class (h : make c r nodeText stamp = .ok plan) (hphase : phase ∈ plan.phases) :
    (phase.jobClass = .sync → ∃ phases, planSync plan.config plan.book r plan.roster.hosts = .ok phases ∧
      phase ∈ phases) ∧
    (phase.jobClass = .data → ∃ phases,
      planData plan.config plan.book r stamp (plan.roster.active r.limit) = .ok phases ∧ phase ∈ phases) := by
  obtain ⟨text, entries, sync, data, experiment, made⟩ := made_of_make h
  have hactive := plan.roster.nodup_active r.limit
  rw [made.phases_eq] at hphase
  simp only [List.mem_append] at hphase
  rcases hphase with ((hphase | hphase) | hphase) | hphase
  · have hclass := ((planSync_eq_ok made.sync_eq plan.roster.distinct).2 phase hphase).1
    exact ⟨fun _ => ⟨sync, made.sync_eq, hphase⟩, fun hdata => by simp [hclass] at hdata⟩
  · have hclass := ((planData_eq_ok made.data_eq hactive).2 phase hphase).1
    exact ⟨fun hsync => by simp [hclass] at hsync, fun _ => ⟨data, made.data_eq, hphase⟩⟩
  · have hclass := ((planCommand_eq plan.book r hactive).2 phase hphase).1
    exact ⟨fun hsync => by simp [hclass] at hsync, fun hdata => by simp [hclass] at hdata⟩
  · obtain ⟨⟨name, hclass⟩, -⟩ := (planExperiment_eq_ok made.experiment_eq hactive).2 phase hphase
    exact ⟨fun hsync => by simp [hclass] at hsync, fun hdata => by simp [hclass] at hdata⟩

theorem sync_job (h : make c r nodeText stamp = .ok plan) (hphase : phase ∈ plan.phases)
    (hclass : phase.jobClass = .sync) :
    ∃ files, plan.config.sync = some files ∧ ∀ job ∈ phase.jobs, job.place = .control ∧
      job.command = Transfer.sendCommand files plan.config.common.access job.host.hostname := by
  obtain ⟨phases, hphases, hmem⟩ := (mem_of_class h hphase).1 hclass
  unfold planSync at hphases
  split at hphases
  · split at hphases
    · rename_i files hfiles
      cases hphases
      rw [List.mem_singleton.mp hmem]
      refine ⟨files, hfiles, fun job hjob => ?_⟩
      obtain ⟨host, -, rfl⟩ := List.mem_map.mp hjob
      exact ⟨rfl, rfl⟩
    · cases hphases
  · cases hphases
    cases hmem

theorem data_job (h : make c r nodeText stamp = .ok plan) (hphase : phase ∈ plan.phases)
    (hclass : phase.jobClass = .data) :
    ∃ directory, r.remoteDirectory = some directory ∧ ∀ job ∈ phase.jobs, job.place = .control ∧
      ∃ folder, job.folders = [folder] ∧ job.command =
        Transfer.fetchCommand plan.config.common.access job.host.hostname ⟨directory⟩ folder := by
  obtain ⟨phases, hphases, hmem⟩ := (mem_of_class h hphase).2 hclass
  unfold planData at hphases
  split at hphases
  · cases hphases
    cases hmem
  · rename_i directory hdirectory
    split at hphases
    · cases hphases
    · cases hphases
    · cases hphases
      rw [List.mem_singleton.mp hmem]
      refine ⟨directory, hdirectory, fun job hjob => ?_⟩
      obtain ⟨host, -, rfl⟩ := List.mem_map.mp hjob
      exact ⟨rfl, _, rfl, rfl⟩

/-- **What `rsync` is given.**  A job that sends files runs `rsync` with the planned arguments, and so does one that
fetches files, whose last argument is the directory that is made for it, if no text that stands in the command means
anything to a shell. -/
theorem transfer_calls (h : make c r nodeText stamp = .ok plan) (hphase : phase ∈ plan.phases) :
    (phase.jobClass = .sync → ∃ files, plan.config.sync = some files ∧ ∀ job ∈ phase.jobs, job.place = .control ∧
      ((∀ w ∈ Transfer.sendWords files plan.config.common.access job.host.hostname, w.isSafe) →
        Calls job.command ["rsync", "-r", "-e", plan.config.common.access.ssh,
          "--exclude-from=" ++ (files.excludeFile.normalFrom files.source.normal).text,
          "--files-from=" ++ (files.includeFile.normalFrom files.source.normal).text, "--progress", "-uva",
          files.source.normal.text ++ "/",
          plan.config.common.access.user ++ "@" ++ job.host.hostname ++ ":" ++ files.destination])) ∧
    (phase.jobClass = .data → ∃ directory, r.remoteDirectory = some directory ∧
      ∀ job ∈ phase.jobs, job.place = .control ∧ ∃ folder, job.folders = [folder] ∧
        ((∀ w ∈ Transfer.fetchWords plan.config.common.access job.host.hostname ⟨directory⟩ folder, w.isSafe) →
          Calls job.command ["rsync", "-e", plan.config.common.access.ssh, "--progress", "-uva",
            plan.config.common.access.user ++ "@" ++ job.host.hostname ++ ":" ++ (Path.mk directory).normal.text ++ "/",
            folder.text ++ "/"])) := by
  refine ⟨fun hclass => ?_, fun hclass => ?_⟩
  · obtain ⟨files, hfiles, hjobs⟩ := sync_job h hphase hclass
    refine ⟨files, hfiles, fun job hjob => ?_⟩
    obtain ⟨hplace, hcommand⟩ := hjobs job hjob
    rw [hcommand, Transfer.sendCommand_eq]
    exact ⟨hplace, Transfer.calls_rsync _⟩
  · obtain ⟨directory, hdirectory, hjobs⟩ := data_job h hphase hclass
    refine ⟨directory, hdirectory, fun job hjob => ?_⟩
    obtain ⟨hplace, folder, hfolder, hcommand⟩ := hjobs job hjob
    rw [hcommand, Transfer.fetchCommand_eq]
    exact ⟨hplace, folder, hfolder, Transfer.calls_rsync _⟩

def sampleFiles : SyncSection := ⟨⟨"build/../out"⟩, "/opt/out", ⟨"include.txt"⟩, ⟨"/etc/exclude.txt"⟩⟩

/-- A configuration for sending and fetching files. -/
def transferConfig : Config :=
  { sampleConfig with
    common := { sampleConfig.common with access := ⟨"ssh -p 22", "ann"⟩ }
    sync := some sampleFiles
    dataDirectory := some ⟨"data"⟩ }

/-- A request to send files to the hosts, and to fetch those of an experiment. -/
def transferRequest (experiment : String) : Request :=
  { sampleRequest with sync := true, remoteDirectory := some "/var/out", experiment := some experiment }

theorem transfer_calls_sample :
    ∃ plan sync data, make transferConfig (transferRequest "bench") (.ok "n1,a,m510\n") "1" = .ok plan ∧
      plan.phases = [sync, data] ∧ sync.jobClass = .sync ∧ data.jobClass = .data ∧
      (∃ job, sync.jobs = [job] ∧
        Calls job.command ["rsync", "-r", "-e", "ssh -p 22", "--exclude-from=/etc/exclude.txt",
          "--files-from=out/include.txt", "--progress", "-uva", "out/", "ann@a.utah.cloudlab.us:/opt/out"]) ∧
      ∃ job, data.jobs = [job] ∧ job.folders = [⟨"data/1/bench/nodes/n1.a.utah.cloudlab.us.data"⟩] ∧
        Calls job.command ["rsync", "-e", "ssh -p 22", "--progress", "-uva", "ann@a.utah.cloudlab.us:/var/out/",
          "data/1/bench/nodes/n1.a.utah.cloudlab.us.data/"] := by
  have hsample : ∃ plan sync data, make transferConfig (transferRequest "bench") (.ok "n1,a,m510\n") "1" = .ok plan ∧
      plan.phases = [sync, data] ∧ sync.jobClass = .sync ∧ data.jobClass = .data ∧
      plan.config.common.access = ⟨"ssh -p 22", "ann"⟩ ∧ plan.config.sync = some sampleFiles ∧
      (∃ job, sync.jobs = [job] ∧ job.host = ⟨"n1", "a.utah.cloudlab.us"⟩) ∧
      ∃ job, data.jobs = [job] ∧ job.host = ⟨"n1", "a.utah.cloudlab.us"⟩ ∧
        job.folders = [⟨"data/1/bench/nodes/n1.a.utah.cloudlab.us.data"⟩] :=
    ⟨_, _, _, rfl, rfl, rfl, rfl, rfl, rfl, ⟨_, rfl, rfl⟩, _, rfl, rfl, rfl⟩
  obtain ⟨plan, sync, data, hplan, hphases, hsync, hdata, haccess, hfiles, ⟨job, hjob, hhost⟩, job', hjob', hhost',
    hfolders'⟩ := hsample
  refine ⟨plan, sync, data, hplan, hphases, hsync, hdata, ⟨job, hjob, ?_⟩, job', hjob', hfolders', ?_⟩
  · obtain ⟨files, hfiles', hcalls⟩ := (transfer_calls hplan (show sync ∈ plan.phases by simp [hphases])).1 hsync
    obtain rfl : sampleFiles = files := Option.some.inj (hfiles.symm.trans hfiles')
    have h := (hcalls job (by simp [hjob])).2
    rw [haccess, hhost] at h
    exact h (by decide +kernel)
  · obtain ⟨directory, hdirectory, hcalls⟩ := (transfer_calls hplan (show data ∈ plan.phases by simp [hphases])).2 hdata
    obtain rfl : "/var/out" = directory := Option.some.inj hdirectory
    obtain ⟨-, folder, hfolder, h⟩ := hcalls job' (by simp [hjob'])
    obtain rfl : folder = ⟨"data/1/bench/nodes/n1.a.utah.cloudlab.us.data"⟩ := by simpa [hfolders'] using hfolder.symm
    rw [haccess, hhost'] at h
    exact h (by decide +kernel)

/-- **A name with a blank.**  The directory that is made for the job is not the one that `rsync` is to fetch into: it
is given the two halves of the name as two arguments. -/
theorem torn_folder :
    ∃ plan data job, make transferConfig { transferRequest "my bench" with sync := false } (.ok "n1,a,m510\n") "1" =
        .ok plan ∧
      plan.phases = [data] ∧ data.jobs = [job] ∧
      job.folders = [⟨"data/1/my bench/nodes/n1.a.utah.cloudlab.us.data"⟩] ∧
      Calls job.command ["rsync", "-e", "ssh -p 22", "--progress", "-uva", "ann@a.utah.cloudlab.us:/var/out/",
        "data/1/my", "bench/nodes/n1.a.utah.cloudlab.us.data/"] ∧
      ¬ Calls job.command ["rsync", "-e", "ssh -p 22", "--progress", "-uva", "ann@a.utah.cloudlab.us:/var/out/",
        "data/1/my bench/nodes/n1.a.utah.cloudlab.us.data/"] := by
  have hcalls := Transfer.calls_rsync [.bare "-e", .quoted "ssh -p 22", .bare "--progress", .bare "-uva",
    .bare "ann@a.utah.cloudlab.us:/var/out/", .bare "data/1/my", .bare "bench/nodes/n1.a.utah.cloudlab.us.data/"]
    (by decide +kernel)
  refine ⟨_, _, _, rfl, rfl, rfl, rfl, hcalls, fun h => ?_⟩
  have hlength := congrArg List.length (hcalls.unique h)
  simp at hlength

end Plan

end Fleet
