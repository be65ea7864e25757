import Fleet.Proofs.Override
import Fleet.Proofs.Text
import Mathlib.Data.List.Forall2

/-!
# What overrides make of arguments

Overrides are carried out one after the other, each on what the one before has left.  What comes out can be said
without following them: the arguments stay in their order, new ones stand behind them in the order in which they are
first named, and each named argument has what the last override of its name gives it (`Revises`).  The step from one
override to the next is `Revises.set`.  `overrides_revise` adds which overrides are accepted, and which one the fault
names otherwise.
-/

namespace Fleet

open Yaml (Value)

/-! ### one override -/

/-- An override sets a name to a value: the name stands before the first equals sign, blanks around it aside. -/
def Assigns (raw name value : String) : Prop :=
  ∃ before, raw = before ++ "=" ++ value ∧ '=' ∉ before.toList ∧ Text.trimmed before = name ∧ name ≠ ""

theorem splitOverride_eq_ok {raw name value : String} :
    splitOverride raw = .ok (name, value) ↔ Assigns raw name value := by
  have hsplit : ∀ before after, Text.splitOnce? '=' raw = some (before, after) ↔
      raw = before ++ "=" ++ after ∧ '=' ∉ before.toList := fun before after => by
    rw [Text.splitOnce?_eq_some, ← String.toList_inj]
    simp
  unfold splitOverride
  constructor
  · intro h
    split at h
    · cases h
    · rename_i before after hbefore
      obtain ⟨hraw, hfree⟩ := (hsplit before after).mp hbefore
      split at h
      · cases h
      · rename_i hblank
        cases h
        exact ⟨before, hraw, hfree, rfl, hblank⟩
  · rintro ⟨before, hraw, hfree, rfl, hblank⟩
    rw [(hsplit before value).mpr ⟨hraw, hfree⟩]
    exact if_neg hblank

theorem pairs_unique {raws : List String} {pairs parts : List (String × String)}
    (h : List.Forall₂ (fun raw pair => Assigns raw pair.1 pair.2) raws pairs)
    (hparts : raws.map splitOverride = parts.map .ok) : pairs = parts := by
  induction h generalizing parts with
  | nil =>
    cases parts with
    | nil => rfl
    | cons part rest => cases hparts
  | cons hassigns _ ih =>
    cases parts with
    | nil => cases hparts
    | cons part rest =>
      obtain ⟨hfirst, hrest⟩ := List.cons.inj hparts
      rw [splitOverride_eq_ok.mpr hassigns] at hfirst
      exact congrArg₂ List.cons (Except.ok.inj hfirst) (ih hrest)

/-- A text spells a boolean, blanks around it and capitals aside. -/
def Spells (text : String) (b : Bool) : Prop :=
  String.ofList (lowered (Text.trim text.toList)) ∈
    if b then ["1", "yes", "true", "on"] else ["0", "no", "false", "off"]

theorem spokenBoolean?_eq_some {text : String} {b : Bool} : spokenBoolean? text = some b ↔ Spells text b := by
  have hone : ∀ word ∈ ["0", "no", "false", "off"], word ∉ ["1", "yes", "true", "on"] := by decide
  unfold spokenBoolean? Spells
  generalize String.ofList (lowered (Text.trim text.toList)) = word
  dsimp only
  by_cases hyes : word ∈ ["1", "yes", "true", "on"]
  · rw [if_pos hyes]
    cases b with
    | true => exact iff_of_true rfl hyes
    | false => exact iff_of_false (by simp) fun hno => hone word hno hyes
  · rw [if_neg hyes]
    by_cases hno : word ∈ ["0", "no", "false", "off"]
    · rw [if_pos hno]
      cases b with
      | true => exact iff_of_false (by simp) hyes
      | false => exact iff_of_true rfl hno
    · rw [if_neg hno]
      cases b with
      | true => exact iff_of_false (by simp) hyes
      | false => exact iff_of_false (by simp) hno

/-- What an override gives to an argument: the boolean it spells if there was a boolean, and else the text itself. -/
def Gives (old : Option Value) (text : String) (v : Value) : Prop :=
  if Value.isBoolean old then ∃ b, Spells text b ∧ v = .bool b else v = .text text

namespace Arguments

variable {m a b : Arguments}

theorem gives_of_overrideValue {old : Option Value} {text : String} {v : Value}
    (h : overrideValue old text = .ok v) : Gives old text v := by
  unfold overrideValue at h
  unfold Gives
  split at h
  · split at h
    · rename_i b hb
      cases h
      exact ⟨b, spokenBoolean?_eq_some.mp hb, rfl⟩
    · cases h
  · rename_i hold
    cases h
    rw [Value.isBoolean_eq_false hold, if_neg (by simp)]

/-- Arguments accept an override that sets a name, to a boolean if they have a boolean of that name. -/
def Accepts (m : Arguments) (raw : String) : Prop :=
  ∃ name value, Assigns raw name value ∧ (Value.isBoolean (m.get? name) = true → ∃ b, Spells value b)

theorem refusal?_eq_none {raw : String} : m.refusal? raw = none ↔ m.Accepts raw := by
  have hspells : ∀ value, (∃ b, Spells value b) ↔ (spokenBoolean? value).isSome := fun value => by
    simp only [← spokenBoolean?_eq_some, Option.isSome_iff_exists]
  unfold refusal?
  constructor
  · intro h
    split at h
    · cases h
    · rename_i name value hsplit
      refine ⟨name, value, splitOverride_eq_ok.mp hsplit, fun hboolean => ?_⟩
      rw [hspells, Option.isSome_iff_ne_none]
      simpa [hboolean] using h
  · rintro ⟨name, value, hassigns, hvalue⟩
    rw [splitOverride_eq_ok.mpr hassigns]
    refine if_neg fun hrefused => ?_
    obtain ⟨hboolean, hnone⟩ := Bool.and_eq_true_iff.mp hrefused
    have hsome : (spokenBoolean? value).isSome = true := (hspells value).mp (hvalue hboolean)
    rw [Option.isNone_iff_eq_none] at hnone
    rw [hnone] at hsome
    cases hsome

/-! ### the arguments of a name -/

theorem isSome_get? {name : String} : (a.get? name).isSome = true ↔ .text name ∈ a.entries.map (·.1) := by
  rw [get?, Option.isSome_map, List.find?_isSome, List.mem_map]
  simp only [Value.isText_iff]

theorem map_fst_set (a : Arguments) (name : String) (v : Value) :
    (a.set name v).entries.map (·.1) =
      if (a.get? name).isSome then a.entries.map (·.1) else a.entries.map (·.1) ++ [.text name] := by
  have hthere : (a.get? name).isSome = a.entries.any fun e => e.1.isText name := by
    rw [Bool.eq_iff_iff, get?, Option.isSome_map, List.find?_isSome, List.any_eq_true]
  rw [hthere]
  change (setEntries name v a.entries).map (·.1) = _
  unfold setEntries
  split
  · rw [List.map_map]
    refine List.map_congr_left fun e _ => ?_
    by_cases he : e.1.isText name = true <;> simp [he]
  · simp

theorem getElem?_set {name : String} {v : Value} {i : Nat} {entry : Value × Value} (h : a.entries[i]? = some entry)
    (hother : entry.1 ≠ .text name) : (a.set name v).entries[i]? = some entry := by
  have hname : entry.1.isText name = false := by
    rw [← Bool.not_eq_true, Value.isText_iff]
    exact hother
  change (setEntries name v a.entries)[i]? = _
  unfold setEntries
  split
  · simp [h, hname]
  · rw [List.getElem?_append_left (List.getElem?_eq_some_iff.mp h).1]
    exact h

/-! ### all overrides -/

/-- The value in the last of the pairs with a name. -/
def lastValue? (pairs : List (String × String)) (name : String) : Option String :=
  (pairs.filter (·.1 == name)).getLast?.map (·.2)

/-- The names of the pairs that no argument has, in the order in which they come first. -/
def newNames (m : Arguments) (pairs : List (String × String)) : List String :=
  ((pairs.map (·.1)).filter fun name => (m.get? name).isNone).eraseDups

theorem lastValue?_concat (pairs : List (String × String)) (name value k : String) :
    lastValue? (pairs ++ [(name, value)]) k = if name = k then some value else lastValue? pairs k := by
  rw [lastValue?, List.filter_append]
  by_cases hk : name = k
  · simp [hk]
  · simp [hk, lastValue?]

theorem newNames_concat (m : Arguments) (pairs : List (String × String)) (name value : String) :
    newNames m (pairs ++ [(name, value)]) =
      if (m.get? name).isSome ∨ name ∈ newNames m pairs then newNames m pairs else newNames m pairs ++ [name] := by
  unfold newNames
  rw [List.map_append, List.filter_append, List.map_singleton]
  cases hname : m.get? name with
  | some v => simp [hname]
  | none =>
    have hfilter : [name].filter (fun name => (m.get? name).isNone) = [name] := by simp [hname]
    rw [hfilter, Text.eraseDups_concat]
    simp only [Option.isSome_none, List.mem_eraseDups, Bool.false_eq_true, false_or]

/-- What arguments become when names are set to values: the names that were there stay in their order and new ones
stand behind them, each name that was set has what its last value gives it, and the other arguments are where they
were. -/
structure Revises (m : Arguments) (pairs : List (String × String)) (a : Arguments) : Prop where
  names : a.entries.map (·.1) = m.entries.map (·.1) ++ (newNames m pairs).map .text
  given : ∀ name value, lastValue? pairs name = some value → ∃ v, a.get? name = some v ∧ Gives (m.get? name) value v
  kept : ∀ (i : Nat) entry, m.entries[i]? = some entry →
    (∀ name, entry.1 = .text name → lastValue? pairs name = none) → a.entries[i]? = some entry

theorem Revises.refl (m : Arguments) : Revises m [] m where
  names := by simp [newNames]
  given := fun name value h => by cases h
  kept := fun i entry h _ => h

theorem Revises.isSome_get? {pairs : List (String × String)} (h : Revises m pairs a) (name : String) :
    (a.get? name).isSome = true ↔ (m.get? name).isSome = true ∨ name ∈ newNames m pairs := by
  rw [Arguments.isSome_get?, h.names, List.mem_append, Arguments.isSome_get?]
  simp

theorem Revises.set {pairs : List (String × String)} (h : Revises m pairs a) {name value : String} {v : Value}
    (hv : Gives (m.get? name) value v) : Revises m (pairs ++ [(name, value)]) (a.set name v) where
  names := by
    rw [map_fst_set, newNames_concat, h.names]
    by_cases hthere : (a.get? name).isSome = true
    · rw [if_pos hthere, if_pos ((h.isSome_get? name).mp hthere)]
    · rw [if_neg hthere, if_neg fun hold => hthere ((h.isSome_get? name).mpr hold)]
      simp
  given := by
    intro k last hlast
    rw [lastValue?_concat] at hlast
    rw [get?_set]
    by_cases hk : name = k
    · subst hk
      rw [if_pos rfl] at hlast
      cases hlast
      exact ⟨v, if_pos rfl, hv⟩
    · rw [if_neg hk] at hlast
      rw [if_neg (Ne.symm hk)]
      exact h.given k last hlast
  kept := by
    intro i entry hentry hnone
    have hother : entry.1 ≠ .text name := fun hname => by
      have hlast := hnone name hname
      rw [lastValue?_concat, if_pos rfl] at hlast
      cases hlast
    refine getElem?_set (h.kept i entry hentry fun k hk => ?_) hother
    have hlast := hnone k hk
    have hne : name ≠ k := fun hname => hother (hname ▸ hk)
    rwa [lastValue?_concat, if_neg hne] at hlast

theorem Revises.overrideAll {pairs : List (String × String)} {raws : List String} (h : Revises m pairs a)
    (hkind : ∀ name, Value.isBoolean (a.get? name) = Value.isBoolean (m.get? name)) (hb : a.overrideAll raws = .ok b) :
    ∃ more, List.Forall₂ (fun raw pair => Assigns raw pair.1 pair.2) raws more ∧ Revises m (pairs ++ more) b := by
  induction raws generalizing a pairs with
  | nil =>
    cases hb
    exact ⟨[], .nil, by rwa [List.append_nil]⟩
  | cons raw rest ih =>
    rw [Arguments.overrideAll] at hb
    split at hb
    · rename_i a' ha'
      have hkind' : ∀ name, Value.isBoolean (a'.get? name) = Value.isBoolean (m.get? name) := fun name =>
        (isBoolean_override ha' name).trans (hkind name)
      obtain ⟨name, value, v, hsplit, hv, rfl⟩ := override_eq_ok ha'
      -- what there is of the name now is a boolean exactly if it was one
      have hgives : Gives (m.get? name) value v := by
        have hnow := gives_of_overrideValue hv
        unfold Gives at hnow ⊢
        rwa [← hkind name]
      obtain ⟨more, hmore, hrevises⟩ := ih (h.set hgives) hkind' hb
      exact ⟨(name, value) :: more, .cons (splitOverride_eq_ok.mp hsplit) hmore, by rwa [List.append_cons]⟩
    · cases hb

end Arguments

/-! ### configurations -/

namespace Config

open Arguments (Revises Accepts)

theorem Overridden.revises {c d : Config} {name : String} {overrides : List String} {e : Experiment}
    (h : c.Overridden name overrides d) (he : c.experiments.get? name = some e) (hsome : overrides ≠ []) :
    ∃ args pairs, List.Forall₂ (fun raw pair => Assigns raw pair.1 pair.2) overrides pairs ∧
      Revises (e.args.getD .empty) pairs args ∧
      d = { c with experiments := c.experiments.insert name { e with args := some args } } := by
  obtain ⟨e', args, he', hargs, hd⟩ := h.changed hsome
  obtain rfl : e = e' := Option.some.inj (he.symm.trans he')
  obtain ⟨pairs, hpairs, hrevises⟩ := (Revises.refl (e.args.getD .empty)).overrideAll (fun _ => rfl) hargs
  exact ⟨args, pairs, hpairs, hrevises, hd⟩

/-- **What overrides make of a configuration.**  Overrides of the arguments of an experiment are accepted exactly if
the arguments, as they were configured, accept each of them; otherwise the fault has the text of the first that they do
not.  No overrides change nothing.  Overrides change the arguments of the experiment and nothing else: the names that
were there stay in their order, new ones stand behind them in the order in which they are first set, and the last
override of a name decides on its value. -/
theorem overrides_revise {c : Config} {name : String} {e : Experiment} (he : c.experiments.get? name = some e)
    (overrides : List String) :
    ((∃ d, c.withOverrides name overrides = .ok d) ↔ ∀ raw ∈ overrides, (e.args.getD .empty).Accepts raw) ∧
    (∀ fault, c.withOverrides name overrides = .error fault →
      ∃ before raw after reason, overrides = before ++ raw :: after ∧
        (∀ x ∈ before, (e.args.getD .empty).Accepts x) ∧ ¬ (e.args.getD .empty).Accepts raw ∧
        fault = .invalidOverride raw reason) ∧
    ∀ d, c.withOverrides name overrides = .ok d →
      (overrides = [] → d = c) ∧
      (overrides ≠ [] → ∃ args pairs,
        List.Forall₂ (fun raw pair => Assigns raw pair.1 pair.2) overrides pairs ∧
        Revises (e.args.getD .empty) pairs args ∧
        d = { c with experiments := d.experiments } ∧
        ∀ other, d.experiments.get? other =
          if other = name then some { e with args := some args } else c.experiments.get? other) := by
  have hfault : fault? (c.withOverrides name overrides) =
      overrides.findSome? fun raw => ((e.args.getD .empty).refusal? raw).map (.invalidOverride raw) := by
    rw [fault?_withOverrides, refusal?, he]
  refine ⟨?accepted, fun fault hrefused => ?refused, fun d hd => ?revised⟩
  case accepted =>
    rw [← fault?_eq_none, hfault, List.findSome?_eq_none_iff]
    simp only [Option.map_eq_none_iff, Arguments.refusal?_eq_none]
  case refused =>
    rw [← fault?_eq_some, hfault, List.findSome?_eq_some_iff] at hrefused
    obtain ⟨before, raw, after, hoverrides, hraw, hbefore⟩ := hrefused
    obtain ⟨reason, hreason, rfl⟩ := Option.map_eq_some_iff.mp hraw
    refine ⟨before, raw, after, reason, hoverrides, fun x hx => ?_, fun haccepts => ?_, rfl⟩
    · exact Arguments.refusal?_eq_none.mp (Option.map_eq_none_iff.mp (hbefore x hx))
    · rw [Arguments.refusal?_eq_none.mpr haccepts] at hreason
      cases hreason
  case revised =>
    have hoverridden := overridden_of_withOverrides hd
    refine ⟨hoverridden.unchanged, fun hsome => ?_⟩
    obtain ⟨args, pairs, hpairs, hrevises, rfl⟩ := hoverridden.revises he hsome
    exact ⟨args, pairs, hpairs, hrevises, rfl, fun other => Table.get?_insert ..⟩

/-- Arguments with values of several kinds, one of which has a number for its name. -/
def mixedArguments : Arguments :=
  ⟨[(.text "mode", .text "rw"), (.number (.integer 10), .text "old"), (.text "warm", .bool false)], by
    simp [Value.Distinct, Value.same]⟩

/-- A configuration with two experiments of these arguments. -/
def mixedConfig : Config :=
  let e : Experiment :=
    { binDirectory := some "/opt", bin := some "bench", leader := none, leaderCommand := none, leaderDelay := none
      leaderPort := none, args := some mixedArguments, leaderArgs := .empty }
  { common := { access := ⟨"ssh", "ann"⟩, loginShell := "bash -l", logDirectory := ⟨"logs"⟩ }
    sync := none, dataDirectory := none, domains := .empty, experiments := .ofList [("bench", e), ("cold", e)] }

/-- Overrides of which two are for one new name, and one is for the text of a name that is a number. -/
def mixedOverrides : List String := ["threads=4", " warm = YES", "mode=a=b", "threads= 8", "10=x"]

theorem overrides_revise_sample :
    (∃ raw reason, mixedConfig.withOverrides "bench" ["threads=4", "warm=maybe", " =x"] =
        .error (.invalidOverride raw reason) ∧ raw = "warm=maybe") ∧
    ∃ d e args, mixedConfig.withOverrides "bench" mixedOverrides = .ok d ∧
      d.experiments.get? "bench" = some e ∧ e.args = some args ∧
      args.entries.map (·.1) = [.text "mode", .number (.integer 10), .text "warm", .text "threads", .text "10"] ∧
      args.get? "threads" = some (.text " 8") ∧ args.get? "warm" = some (.bool true) ∧
      args.entries[1]? = some (.number (.integer 10), .text "old") ∧
      d.experiments.get? "cold" = mixedConfig.experiments.get? "cold" := by
  obtain ⟨e, he, hargs⟩ : ∃ e, mixedConfig.experiments.get? "bench" = some e ∧ e.args = some mixedArguments :=
    ⟨_, rfl, rfl⟩
  obtain ⟨d, hd⟩ : ∃ d, mixedConfig.withOverrides "bench" mixedOverrides = .ok d := ⟨_, rfl⟩
  obtain ⟨-, hrefused, -⟩ := overrides_revise he ["threads=4", "warm=maybe", " =x"]
  obtain ⟨-, -, hrevised⟩ := overrides_revise he mixedOverrides
  rw [hargs, Option.getD_some] at hrevised
  obtain ⟨args, pairs, hpairs, hrevises, -, hexperiments⟩ := (hrevised d hd).2 (by simp [mixedOverrides])
  obtain rfl : pairs = [("threads", "4"), ("warm", " YES"), ("mode", "a=b"), ("threads", " 8"), ("10", "x")] :=
    pairs_unique hpairs rfl
  refine ⟨?_, d, _, args, hd, hexperiments "bench", rfl, hrevises.names.trans rfl, ?_, ?_, ?_, hexperiments "cold"⟩
  · obtain ⟨before, raw, after, reason, -, -, -, hfault⟩ := hrefused (.invalidOverride "warm=maybe" .notBoolean) rfl
    exact ⟨raw, reason, by rw [← hfault]; rfl, (Fault.invalidOverride.inj hfault).1.symm⟩
  · obtain ⟨v, hv, hgives⟩ := hrevises.given "threads" " 8" rfl
    rw [hv, show v = .text " 8" from hgives]
  · obtain ⟨v, hv, b, hspells, rfl⟩ := hrevises.given "warm" " YES" rfl
    have hyes : spokenBoolean? " YES" = some true := rfl
    rw [← spokenBoolean?_eq_some, hyes] at hspells
    rw [hv, ← Option.some.inj hspells]
  · exact hrevises.kept 1 _ rfl fun name hname => by cases hname

end Config

end Fleet
