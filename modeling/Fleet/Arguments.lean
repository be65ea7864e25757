import Fleet.Yaml.Value

/-!
# Arguments

The arguments of a program in the order in which they were declared, no name twice.  Setting an argument
keeps it at its place; a new one goes to the end.
-/

namespace Fleet

open Yaml (Value)

def Yaml.Value.isText (key : String) : Value → Bool
  | .text s => s == key
  | _ => false

theorem Yaml.Value.same_text (v : Value) (key : String) : v.same (.text key) = v.isText key := by
  cases v <;> simp [same, isText]

/-- Names and values, no name twice. -/
structure Arguments where
  entries : List (Value × Value)
  distinct : Value.Distinct entries

namespace Arguments

@[ext] theorem ext {a b : Arguments} (h : a.entries = b.entries) : a = b := by
  cases a; cases b; cases h; rfl

def empty : Arguments := ⟨[], .nil⟩

instance : Inhabited Arguments := ⟨empty⟩

/-- The arguments with the given names and values, if no name comes twice. -/
def ofEntries? (entries : List (Value × Value)) : Option Arguments :=
  if h : Value.Distinct entries then some ⟨entries, h⟩ else none

def get? (a : Arguments) (key : String) : Option Value :=
  (a.entries.find? fun e => e.1.isText key).map (·.2)

/-- The entries with the value of a name set, at its place or at the end. -/
def setEntries (key : String) (value : Value) (entries : List (Value × Value)) : List (Value × Value) :=
  if entries.any fun e => e.1.isText key then
    entries.map fun e => if e.1.isText key then (e.1, value) else e
  else entries ++ [(.text key, value)]

theorem distinct_setEntries (key : String) (value : Value) {entries : List (Value × Value)}
    (h : Value.Distinct entries) : Value.Distinct (setEntries key value entries) := by
  unfold setEntries
  split
  · refine List.pairwise_map.2 (List.Pairwise.imp ?_ h)
    intro a b hab
    split <;> split <;> exact hab
  · rename_i hnone
    refine List.pairwise_append.2 ⟨h, List.pairwise_singleton .., fun a ha b hb => ?_⟩
    rw [List.mem_singleton.1 hb, Value.same_text]
    cases hx : a.1.isText key with
    | false => rfl
    | true => exact absurd (List.any_eq_true.2 ⟨a, ha, hx⟩) hnone

def set (a : Arguments) (key : String) (value : Value) : Arguments :=
  ⟨setEntries key value a.entries, distinct_setEntries key value a.distinct⟩

end Arguments

end Fleet
