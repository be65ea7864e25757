import Fleet.Config
import Fleet.Config.Outline
import Fleet.Yaml.Layout
import Fleet.Yaml.Style

/-!
# Writing configurations

A configuration is written as a mapping with its fields in a fixed order.  What is absent is left out, and so
are domains and leader arguments if there are none; experiments are always written.  A configuration whose
arguments cannot be written is outlined instead.  The written configuration is the head of every log.
-/

namespace Fleet

open Yaml (Value)

def optionalField {α : Type} (name : String) (toValue : α → Value) : Option α → List (Value × Value)
  | some x => [(.text name, toValue x)]
  | none => []

def textField (name text : String) : Value × Value := (.text name, .text text)

def naturalValue (n : Nat) : Value := .number (.integer n)

def Table.toValue {α : Type} (t : Table α) (toValue : α → Value) : Value :=
  .mapping (t.entries.map fun e => (.text e.1, toValue e.2))

def CommonSection.toValue (s : CommonSection) : Value :=
  .mapping
    [textField "ssh" s.access.ssh, textField "remote_user" s.access.user,
      textField "login_shell" s.loginShell, textField "log_dir" s.logDirectory.text]

/-- The value of the section that says which files are sent. -/
def SyncSection.toValue (s : SyncSection) : Value :=
  .mapping
    [textField "src" s.source.text, textField "dest" s.destination,
      textField "include_file" s.includeFile.text, textField "exclude_file" s.excludeFile.text]

/-- The value of the section that says where fetched files are kept. -/
def Config.dataValue (destination : Path) : Value :=
  .mapping [textField "dest" destination.text]

def Experiment.toValue (e : Experiment) : Value :=
  .mapping
    (optionalField "bin_dir" .text e.binDirectory ++ optionalField "bin" .text e.bin ++
      optionalField "leader" .text e.leader ++ optionalField "leader_cmd" .text e.leaderCommand ++
      optionalField "leader_delay_ms" (fun n => naturalValue n.toNat) e.leaderDelay ++
      optionalField "leader_port" (fun n => naturalValue n.toNat) e.leaderPort ++
      optionalField "args" (fun a => .mapping a.entries) e.args ++
      if e.leaderArgs.entries.isEmpty then [] else [(.text "leader_args", .mapping e.leaderArgs.entries)])

namespace Config

def toValue (c : Config) : Value :=
  .mapping
    ((.text "common", c.common.toValue) ::
      (optionalField "sync" SyncSection.toValue c.sync ++
        optionalField "get_data" dataValue c.dataDirectory ++
        (if c.domains.entries.isEmpty then [] else [(.text "domains", c.domains.toValue .text)]) ++
        [(.text "experiments", c.experiments.toValue Experiment.toValue)]))

/-- The head of every log: a title and the configuration. -/
def render (c : Config) : String :=
  "Configuration:\n" ++ if c.toValue.isWritable then c.toValue.toNode.write else c.outline.text ++ "\n"

end Config

end Fleet
