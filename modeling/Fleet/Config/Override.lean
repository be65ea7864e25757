import Fleet.Config
import Fleet.Text.Blank
import Fleet.Text.Lines

/-!
# Argument overrides

An override `key=value` sets one argument of an experiment.  The key ends at the first equals sign and is
trimmed.  An argument that is a boolean stays one, so its override has to spell a boolean; any other becomes
the given text.
-/

namespace Fleet

open Yaml (Value)

/-- A text with its ASCII capitals made small. -/
def lowered (s : List Char) : List Char := s.map Char.toLower

/-- The boolean that a text spells for a user, without regard to blanks around it and to capitals. -/
def spokenBoolean? (s : String) : Option Bool :=
  let word := String.ofList (lowered (Text.trim s.toList))
  if word ∈ ["1", "yes", "true", "on"] then some true
  else if word ∈ ["0", "no", "false", "off"] then some false
  else none

/-- The key and the value of an override. -/
def splitOverride (raw : String) : Except OverrideFault (String × String) :=
  match Text.splitOnce? '=' raw with
  | none => .error .noEquals
  | some (key, value) =>
    if Text.trimmed key = "" then .error .emptyKey else .ok (Text.trimmed key, value)

namespace Arguments

/-- The value that an override gives to an argument: a boolean if it has one, else the text itself. -/
def overrideValue (old : Option Value) (value : String) : Except OverrideFault Value :=
  match old with
  | some (.bool _) =>
    match spokenBoolean? value with
    | some b => .ok (.bool b)
    | none => .error .notBoolean
  | _ => .ok (.text value)

def override (a : Arguments) (raw : String) : Except Fault Arguments :=
  match splitOverride raw with
  | .error reason => .error (.invalidOverride raw reason)
  | .ok (key, value) =>
    match overrideValue (a.get? key) value with
    | .error reason => .error (.invalidOverride raw reason)
    | .ok v => .ok (a.set key v)

def overrideAll (a : Arguments) : List String → Except Fault Arguments
  | [] => .ok a
  | raw :: rest =>
    match a.override raw with
    | .ok a => a.overrideAll rest
    | .error fault => .error fault

end Arguments

/-- The configuration with overrides for the arguments of one experiment.  No overrides change nothing, not
even absent arguments to empty ones. -/
def Config.withOverrides (c : Config) (name : String) (overrides : List String) : Except Fault Config :=
  match c.experiment name with
  | .error fault => .error fault
  | .ok e =>
    if overrides = [] then .ok c
    else
      match (e.args.getD .empty).overrideAll overrides with
      | .ok args => .ok { c with experiments := c.experiments.insert name { e with args := some args } }
      | .error fault => .error fault

end Fleet
