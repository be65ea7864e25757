import Fleet.Config.Override
import Fleet.Launch
import Fleet.Logbook

/-!
# Planning a run

A plan is made from a configuration, a request and the text of the node file, and nothing is sent out before
it is complete.  Its phases are, in this order, those of sending files, fetching files, a command of the user's
and an experiment, each if it is requested.  Files are sent to all hosts, and everything else goes to the active
ones.  A skipped host gets no part in the experiment, but the others still count it in.
-/

namespace Fleet

/-- What the user wants to be done. -/
structure Request where
  nodeFile : Path
  /-- how many hosts are active -/
  limit : Option Nat
  /-- hosts that take no part in the experiment -/
  skip : List String
  /-- hosts that are not there -/
  offline : List String
  sync : Bool
  command : Option String
  /-- the directory of the hosts whose files are fetched -/
  remoteDirectory : Option String
  experiment : Option String
  overrides : List String
  options : LaunchOptions
  deriving Inhabited

/-- What is going to be done. -/
structure Plan where
  /-- the configuration with the overrides of the request -/
  config : Config
  testbed : String
  roster : Roster
  phases : List Phase
  notices : List Notice

namespace Plan

/-! ### the phases -/

def syncPhase (c : Config) (book : Logbook) (files : SyncSection) (hosts : List Host) : Phase :=
  .ofJobs .sync <| hosts.map fun h =>
    { host := h, jobClass := .sync, place := .control
      command := Transfer.sendCommand files c.common.access h.hostname
      log := book.logPath .sync h.id h.hostname
      folders := [] }

/-- The directory in which the files fetched from a host are kept. -/
def dataFolder (root : Path) (stamp experiment testbed : String) (h : Host) : Path :=
  (((root.child stamp).child experiment).child testbed).child (h.id ++ "." ++ h.hostname ++ ".data")

/-- The phase that fetches files from hosts. -/
def dataPhase (c : Config) (book : Logbook) (root : Path) (stamp experiment remoteDirectory : String)
    (hosts : List Host) : Phase :=
  .ofJobs .data <| hosts.map fun h =>
    let folder := dataFolder root stamp experiment book.testbed h
    { host := h, jobClass := .data, place := .control
      command := Transfer.fetchCommand c.common.access h.hostname ⟨remoteDirectory⟩ folder
      log := book.logPath .data h.id h.hostname
      folders := [folder] }

/-- The phase that runs a command of the user's on hosts. -/
def commandPhase (book : Logbook) (command : String) (hosts : List Host) : Phase :=
  .ofJobs .command <| hosts.map fun h =>
    { host := h, jobClass := .command, place := .host, command
      log := book.logPath .command h.id h.hostname
      folders := [] }

def leaderStep (l : Launch) (book : Logbook) (leader : Leader) (h : Host) : LeaderStep :=
  { job :=
      { host := h, jobClass := .leader, place := .host, command := leader.command
        log := book.logPath .leader h.id h.hostname
        folders := [] }
    barrier := l.barrier }

/-- The leader step on a host, if the host is the leader. -/
def leaderStep? (l : Launch) (book : Logbook) (h : Host) : Option LeaderStep :=
  (l.leader.filter (·.id == h.id)).map fun leader => leaderStep l book leader h

def experimentJob (l : Launch) (book : Logbook) (hosts : List Host) (h : Host) (position : Nat) : Job :=
  let jobClass := JobClass.experiment l.experiment
  { host := h, jobClass, place := .host
    command := l.command hosts h.id position (l.isLeader h.id)
    log := book.logPath jobClass h.id h.hostname
    folders := [] }

/-- The phase of an experiment with one more of its hosts.  Skipping the leader leaves out its part, not its
command. -/
def enlist (l : Launch) (book : Logbook) (hosts : List Host) (skip : List String) (phase : Phase)
    (x : Host × Nat) : Phase :=
  let phase :=
    match leaderStep? l book x.1 with
    | some step => { phase with leader := some step }
    | none => phase
  if x.1.id ∈ skip then { phase with skipped := phase.skipped ++ [x.1.id] }
  else { phase with jobs := phase.jobs ++ [experimentJob l book hosts x.1 x.2] }

/-- The phase that runs an experiment on hosts.  A host's position counts the skipped ones. -/
def experimentPhase (l : Launch) (book : Logbook) (hosts : List Host) (skip : List String) : Phase :=
  hosts.zipIdx.foldl (enlist l book hosts skip) (.ofJobs (.experiment l.experiment) [])

/-- What is told when the phase of an experiment is planned: that its leader is not there. -/
def leaderNotices (l : Launch) (phase : Phase) : List Notice :=
  match l.leader with
  | some leader => if phase.leader.isNone then [.leaderNotActive leader.id] else []
  | none => []

/-! ### the checks -/

/-- The configuration with the overrides of a request.  Fetching files needs the experiment only as a name, so
it need not be configured unless something is to be overridden. -/
def resolveConfig (c : Config) (r : Request) : Except Fault Config :=
  match r.experiment with
  | some name =>
    if r.remoteDirectory.isNone || r.overrides != [] then c.withOverrides name r.overrides else .ok c
  | none =>
    if r.overrides != [] then .error (.invalidRequest .overridesWithoutExperiment) else .ok c

def planSync (c : Config) (book : Logbook) (r : Request) (hosts : List Host) : Except Fault (List Phase) :=
  if r.sync then
    match c.sync with
    | some files => .ok [syncPhase c book files hosts]
    | none => .error (.invalidRequest .syncWithoutSection)
  else .ok []

/-- The phase that fetches files, if it is requested. -/
def planData (c : Config) (book : Logbook) (r : Request) (stamp : String) (hosts : List Host) :
    Except Fault (List Phase) :=
  match r.remoteDirectory with
  | none => .ok []
  | some remoteDirectory =>
    match r.experiment, c.dataDirectory with
    | none, _ => .error (.invalidRequest .dataWithoutExperiment)
    | some _, none => .error (.invalidRequest .dataWithoutSection)
    | some name, some root => .ok [dataPhase c book root stamp name remoteDirectory hosts]

/-- The phase of the user's command, if one is given. -/
def planCommand (book : Logbook) (r : Request) (hosts : List Host) : List Phase :=
  match r.command with
  | some command => [commandPhase book command hosts]
  | none => []

/-- The phase of the experiment with its notices, if one is requested and no files are fetched. -/
def planExperiment (c : Config) (book : Logbook) (r : Request) (hosts : List Host) :
    Except Fault (List Phase × List Notice) :=
  match r.experiment, r.remoteDirectory with
  | some name, none =>
    match Launch.resolve c name r.options with
    | .ok l =>
      let phase := experimentPhase l book hosts r.skip
      .ok ([phase], Launch.notices c name ++ leaderNotices l phase)
    | .error fault => .error fault
  | _, _ => .ok ([], [])

/-- The plan of a request, made at a time stamp, from what reading the node file gave. -/
def make (c : Config) (r : Request) (nodeText : Except SystemFault String) (stamp : String) :
    Except Fault Plan := do
  let text ← nodeText.mapError .system
  let entries ← NodeFile.parse r.nodeFile text
  let roster ← Roster.resolve entries r.offline (Domains.builtin.merge c.domains)
  let resolved ← resolveConfig c r
  let testbed := testbedLabel r.nodeFile
  let book : Logbook := ⟨resolved.common.logDirectory, testbed⟩
  let active := roster.active r.limit
  let syncPhases ← planSync resolved book r roster.hosts
  let dataPhases ← planData resolved book r stamp active
  let (experimentPhases, notices) ← planExperiment resolved book r active
  pure {
    config := resolved, testbed, roster, notices
    phases := syncPhases ++ dataPhases ++ planCommand book r active ++ experimentPhases }

end Plan

end Fleet
