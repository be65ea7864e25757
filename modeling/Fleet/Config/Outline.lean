import Fleet.Config
import Fleet.Text.Outline
import Fleet.Text.Printable

/-!
# Outlines of configurations

A configuration with all its fields, also those that are absent.  It can be outlined whatever its arguments are.
-/

namespace Fleet

open Text (Outline)

def textOutline (s : String) : Outline := .word (Text.quoted s)

def Table.outline {α : Type} (t : Table α) (outline : α → Outline) : Outline :=
  .group "\x7b" "\x7d" (t.entries.map fun e => (some (textOutline e.1), outline e.2))

namespace Yaml.Value

mutual

def outline : Value → Outline
  | .null => .word "Null"
  | .bool b => .word ("Bool(" ++ (if b then "true" else "false") ++ ")")
  | .number n => .word ("Number(" ++ n.text ++ ")")
  | .text s => .word ("String(" ++ Text.quoted s ++ ")")
  | .sequence items => .group "Sequence [" "]" (itemOutlines items)
  | .mapping entries => .group "Mapping \x7b" "\x7d" (entryOutlines entries)
  | .tagged tag content => .record "TaggedValue" [("tag", .word ("!" ++ tag)), ("value", content.outline)]

def itemOutlines : List Value → List (Option Outline × Outline)
  | [] => []
  | v :: vs => (none, v.outline) :: itemOutlines vs

/-- The outlines of the entries of a mapping. -/
def entryOutlines : List (Value × Value) → List (Option Outline × Outline)
  | [] => []
  | e :: es => entryOutline e :: entryOutlines es

/-- The outline of an entry; texts, booleans and numbers are keys without their kinds. -/
def entryOutline : Value × Value → Option Outline × Outline
  | (.text s, v) => (some (textOutline s), v.outline)
  | (.bool b, v) => (some (.word (if b then "true" else "false")), v.outline)
  | (.number n, v) => (some (.word n.text), v.outline)
  | (k, v) => (some k.outline, v.outline)

end

end Yaml.Value

def Arguments.outline (a : Arguments) : Outline := (Yaml.Value.mapping a.entries).outline

def naturalOutline (n : Nat) : Outline := .word (toString n)

def Path.outline (p : Path) : Outline := textOutline p.text

def CommonSection.outline (s : CommonSection) : Outline :=
  .record "CommonConfig"
    [("ssh", textOutline s.access.ssh), ("remote_user", textOutline s.access.user),
      ("login_shell", textOutline s.loginShell), ("log_dir", s.logDirectory.outline)]

/-- The outline of the section that says which files are sent. -/
def SyncSection.outline (s : SyncSection) : Outline :=
  .record "SyncConfig"
    [("src", s.source.outline), ("dest", textOutline s.destination), ("include_file", s.includeFile.outline),
      ("exclude_file", s.excludeFile.outline)]

/-- The outline of the section that says where fetched files are kept. -/
def Config.dataOutline (destination : Path) : Outline :=
  .record "GetDataConfig" [("dest", destination.outline)]

def Experiment.outline (e : Experiment) : Outline :=
  .record "ExperimentConfig"
    [("bin_dir", .optional textOutline e.binDirectory), ("bin", .optional textOutline e.bin),
      ("leader", .optional textOutline e.leader), ("leader_cmd", .optional textOutline e.leaderCommand),
      ("leader_delay_ms", .optional (fun n => naturalOutline n.toNat) e.leaderDelay),
      ("leader_port", .optional (fun n => naturalOutline n.toNat) e.leaderPort),
      ("args", .optional Arguments.outline e.args), ("leader_args", e.leaderArgs.outline)]

def Config.outline (c : Config) : Outline :=
  .record "Config"
    [("common", c.common.outline), ("sync", .optional SyncSection.outline c.sync),
      ("get_data", .optional Config.dataOutline c.dataDirectory), ("domains", c.domains.outline textOutline),
      ("experiments", c.experiments.outline Experiment.outline)]

end Fleet
