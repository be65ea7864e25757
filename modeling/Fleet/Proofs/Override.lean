import Fleet.Config.Override
import Fleet.Proofs.Fallible

/-!
# Overridden arguments

Overrides are carried out one after the other, but whether one of them is refused can be told from the arguments as
they were configured: an override never makes a boolean of another argument, nor anything else of a boolean
(`isBoolean_override`).  So the first refused override is found without carrying out those before it
(`fault?_overrideAll`).
-/

namespace Fleet

open Yaml (Value)

def Yaml.Value.isBoolean : Option Value → Bool
  | some (.bool _) => true
  | _ => false

theorem Yaml.Value.isText_iff {key : String} {x : Value} : x.isText key = true ↔ x = .text key := by
  cases x <;> simp [isText]

theorem Yaml.Value.isBoolean_eq_false {old : Option Value} (h : ∀ b, old = some (.bool b) → False) :
    isBoolean old = false := by
  unfold isBoolean
  split
  · exact absurd rfl (h _)
  · rfl

namespace Arguments

variable {a b : Arguments} {raw : String}

/-! ### one argument -/

/-- Setting the value of a name at its places does not change which entry is the first of a name. -/
theorem find?_map_set (key k : String) (v : Value) (entries : List (Value × Value)) :
    (entries.map fun e => if e.1.isText key then (e.1, v) else e).find? (fun e => e.1.isText k) =
      (entries.find? fun e => e.1.isText k).map fun e => if e.1.isText key then (e.1, v) else e := by
  have hname : ((fun e : Value × Value => e.1.isText k) ∘
      fun e : Value × Value => if e.1.isText key then (e.1, v) else e) = fun e => e.1.isText k := by
    funext e
    by_cases he : e.1.isText key = true <;> simp [he]
  rw [List.find?_map, hname]

theorem find?_setEntries (key k : String) (v : Value) (entries : List (Value × Value)) :
    ((setEntries key v entries).find? fun e => e.1.isText k).map (·.2) =
      if k = key then some v else (entries.find? fun e => e.1.isText k).map (·.2) := by
  unfold setEntries
  split
  · rename_i hthere
    rw [find?_map_set, Option.map_map]
    by_cases hk : k = key
    · subst hk
      obtain ⟨e, he⟩ := Option.isSome_iff_exists.mp (List.find?_isSome.mpr (List.any_eq_true.mp hthere))
      have htext : e.1.isText k = true := by simpa using List.find?_some he
      simp [he, htext]
    · rw [if_neg hk]
      refine Option.map_congr fun e he => ?_
      have htext : e.1.isText k = true := by simpa using List.find?_some (Option.mem_def.mp he)
      rw [Value.isText_iff] at htext
      simp [htext, Value.isText, hk]
  · rename_i hnone
    rw [List.find?_append]
    by_cases hk : k = key
    · subst hk
      have hfind : (entries.find? fun e => e.1.isText k) = none := by
        rw [List.find?_eq_none]
        exact fun e he htext => hnone (List.any_eq_true.mpr ⟨e, he, htext⟩)
      rw [hfind, if_pos rfl]
      simp [Value.isText]
    · have hnew : Value.isText k (.text key) = false := by simpa [Value.isText] using Ne.symm hk
      simp [hk, hnew]

@[simp] theorem get?_set (a : Arguments) (key k : String) (v : Value) :
    (a.set key v).get? k = if k = key then some v else a.get? k :=
  find?_setEntries key k v a.entries

/-! ### what is refused -/

/-- Why an override is refused, if it is: it has no equals sign or no key, or its argument is a boolean and its value
spells none. -/
def refusal? (a : Arguments) (raw : String) : Option OverrideFault :=
  match splitOverride raw with
  | .error reason => some reason
  | .ok (key, value) =>
    if Value.isBoolean (a.get? key) && (spokenBoolean? value).isNone then some .notBoolean else none

theorem isBoolean_overrideValue {old : Option Value} {value : String} {v : Value}
    (h : overrideValue old value = .ok v) : Value.isBoolean (some v) = Value.isBoolean old := by
  unfold overrideValue at h
  split at h
  · split at h
    · cases h
      rfl
    · cases h
  · rename_i hold
    cases h
    rw [Value.isBoolean_eq_false hold]
    rfl

theorem fault?_overrideValue (old : Option Value) (value : String) :
    fault? (overrideValue old value) =
      if Value.isBoolean old && (spokenBoolean? value).isNone then some .notBoolean else none := by
  unfold overrideValue
  split
  · cases h : spokenBoolean? value <;> simp [Value.isBoolean]
  · rename_i hold
    simp [Value.isBoolean_eq_false hold]

theorem fault?_override (a : Arguments) (raw : String) :
    fault? (a.override raw) = (a.refusal? raw).map (.invalidOverride raw) := by
  unfold override refusal?
  cases splitOverride raw with
  | error reason => rfl
  | ok x =>
    simp only [← fault?_overrideValue]
    cases overrideValue (a.get? x.1) x.2 <;> rfl

theorem override_eq_ok (h : a.override raw = .ok b) :
    ∃ name value v, splitOverride raw = .ok (name, value) ∧ overrideValue (a.get? name) value = .ok v ∧
      b = a.set name v := by
  unfold override at h
  split at h
  · cases h
  · rename_i name value hsplit
    split at h
    · cases h
    · rename_i v hv
      cases h
      exact ⟨name, value, v, hsplit, hv, rfl⟩

theorem isBoolean_override (h : a.override raw = .ok b) (key : String) :
    Value.isBoolean (b.get? key) = Value.isBoolean (a.get? key) := by
  obtain ⟨name, value, v, -, hv, rfl⟩ := override_eq_ok h
  rw [get?_set]
  split
  · rename_i heq
    rw [heq]
    exact isBoolean_overrideValue hv
  · rfl

theorem refusal?_congr (h : ∀ key, Value.isBoolean (b.get? key) = Value.isBoolean (a.get? key)) (raw : String) :
    b.refusal? raw = a.refusal? raw := by
  unfold refusal?
  split
  · rfl
  · rw [h]

theorem fault?_overrideAll (a : Arguments) (raws : List String) :
    fault? (a.overrideAll raws) = raws.findSome? fun raw => (a.refusal? raw).map (.invalidOverride raw) := by
  induction raws generalizing a with
  | nil => rfl
  | cons raw rest ih =>
    rw [overrideAll, List.findSome?_cons, ← fault?_override]
    cases h : a.override raw with
    | error fault => rfl
    | ok b =>
      simp only [fault?_ok, ih b, refusal?_congr (isBoolean_override h)]

end Arguments

/-! ### overridden configurations -/

namespace Config

/-- What overriding an experiment's arguments makes of a configuration: nothing without overrides, and else the
experiment has the overridden arguments. -/
structure Overridden (c : Config) (name : String) (overrides : List String) (d : Config) : Prop where
  unchanged : overrides = [] → d = c
  changed : overrides ≠ [] → ∃ e args, c.experiments.get? name = some e ∧
    (e.args.getD .empty).overrideAll overrides = .ok args ∧
    d = { c with experiments := c.experiments.insert name { e with args := some args } }

/-- Why overrides are refused, if they are: the experiment is not configured, or one of them is not accepted. -/
def refusal? (c : Config) (name : String) (overrides : List String) : Option Fault :=
  match c.experiments.get? name with
  | none => some (missing name none)
  | some e => overrides.findSome? fun raw => ((e.args.getD .empty).refusal? raw).map (.invalidOverride raw)

theorem fault?_withOverrides (c : Config) (name : String) (overrides : List String) :
    fault? (c.withOverrides name overrides) = c.refusal? name overrides := by
  unfold withOverrides refusal? experiment
  cases c.experiments.get? name with
  | none => rfl
  | some e =>
    simp only
    split
    · rename_i hnone
      rw [hnone]
      rfl
    · rw [← Arguments.fault?_overrideAll]
      cases (e.args.getD .empty).overrideAll overrides <;> rfl

theorem overridden_of_withOverrides {c d : Config} {name : String} {overrides : List String}
    (h : c.withOverrides name overrides = .ok d) : c.Overridden name overrides d := by
  unfold withOverrides experiment at h
  cases he : c.experiments.get? name with
  | none =>
    rw [he] at h
    cases h
  | some e =>
    simp only [he] at h
    split at h
    · rename_i hnone
      cases h
      exact ⟨fun _ => rfl, fun hsome => absurd hnone hsome⟩
    · rename_i hsome
      split at h
      · rename_i args hargs
        cases h
        exact ⟨fun hnone => absurd hnone hsome, fun _ => ⟨e, args, he, hargs, rfl⟩⟩
      · cases h

end Config

end Fleet
