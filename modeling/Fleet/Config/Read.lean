import Fleet.Config
import Fleet.Yaml.Decode
import Fleet.Yaml.Document

/-!
# Reading configurations

The fields of each section by name, with the values of those that may be left out.  Entries of other names
are ignored.
-/

namespace Fleet

open Yaml (Document Node Reader)
open Yaml.Reader

def CommonSection.read (d : Document) (depth : Nat) (n : Node) : Reader CommonSection := do
  let (fs, _) ← fields d depth ["ssh", "remote_user", "login_shell", "log_dir"] n
  let ssh ← orElse fs "ssh" Config.defaultSsh (text d)
  let user ← required fs "remote_user" (text d)
  let loginShell ← orElse fs "login_shell" Config.defaultLoginShell (text d)
  let logDirectory ← orElse fs "log_dir" Config.defaultLogDirectory fun n => Path.mk <$> text d n
  pure ⟨⟨ssh, user⟩, loginShell, logDirectory⟩

/-- The section that says which files are sent. -/
def SyncSection.read (d : Document) (depth : Nat) (n : Node) : Reader SyncSection := do
  let (fs, _) ← fields d depth ["src", "dest", "include_file", "exclude_file"] n
  let source ← required fs "src" (text d)
  let destination ← required fs "dest" (text d)
  let includeFile ← required fs "include_file" (text d)
  let excludeFile ← required fs "exclude_file" (text d)
  pure ⟨⟨source⟩, destination, ⟨includeFile⟩, ⟨excludeFile⟩⟩

/-- The section that says where fetched files are kept. -/
def Config.readDataSection (d : Document) (depth : Nat) (n : Node) : Reader Path := do
  let (fs, _) ← fields d depth ["dest"] n
  let destination ← required fs "dest" (text d)
  pure ⟨destination⟩

def Arguments.read (d : Document) (depth : Nat) (n : Node) : Reader Arguments := do
  ofOption (Arguments.ofEntries? (← valueEntries d depth n))

def Experiment.read (d : Document) (depth : Nat) (n : Node) : Reader Experiment := do
  let names := ["bin_dir", "bin", "leader", "leader_cmd", "leader_delay_ms", "leader_port", "args",
    "leader_args"]
  let (fs, depth) ← fields d depth names n
  let binDirectory ← orElse fs "bin_dir" none (optional d (text d))
  let bin ← orElse fs "bin" none (optional d (text d))
  let leader ← orElse fs "leader" none (optional d (text d))
  let leaderCommand ← orElse fs "leader_cmd" none (optional d (text d))
  let leaderDelay ← orElse fs "leader_delay_ms" none
    (optional d fun n => UInt64.ofNat <$> naturalBelow UInt64.size d n)
  let leaderPort ← orElse fs "leader_port" none
    (optional d fun n => UInt16.ofNat <$> naturalBelow UInt16.size d n)
  let args ← orElse fs "args" none (optional d (Arguments.read d depth))
  let leaderArgs ← orElse fs "leader_args" Arguments.empty (Arguments.read d depth)
  pure { binDirectory, bin, leader, leaderCommand, leaderDelay, leaderPort, args, leaderArgs }

namespace Config

def read (d : Document) (n : Node) : Reader Config := do
  let (fs, depth) ← fields d maxDepth ["common", "sync", "get_data", "domains", "experiments"] n
  let common ← required fs "common" (CommonSection.read d depth)
  let sync ← orElse fs "sync" none (optional d (SyncSection.read d depth))
  let dataDirectory ← orElse fs "get_data" none (optional d (readDataSection d depth))
  let domains ← orElse fs "domains" [] (textEntries d depth fun _ => text d)
  let experiments ← orElse fs "experiments" [] (textEntries d depth (Experiment.read d))
  pure ⟨common, sync, dataDirectory, .ofList domains, .ofList experiments⟩

def ofDocument? (d : Document) : Option Config :=
  Reader.run d (read d)

/-- The configuration that a file's text describes.  The decoder's words for a text that describes none come from
outside. -/
def parse (explain : String → String) (path : Path) (text : String) : Except Fault Config :=
  match (Document.parse? text).bind ofDocument? with
  | some c => .ok c
  | none => .error (.unreadableConfig path (explain text))

end Config

end Fleet
