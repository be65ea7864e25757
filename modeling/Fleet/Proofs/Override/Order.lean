import Fleet.Proofs.Override.Flags
import Mathlib.Data.List.Perm.Basic

/-!
# Overrides in a row

What becomes of arguments depends on the last value that is set for each name and on the order in which new names come
first, and on nothing else (`Revises.entries_eq`).  So overrides can be carried out in one go or in two, carrying them
out again changes nothing, and overrides of different names may change places: that moves at most the new names
(`override_order`).
-/

namespace Fleet

open Yaml (Value)

/-! ### what an override sets -/

/-- The name that an override is for: what stands before the first equals sign, blanks around it aside. -/
def overriddenName (raw : String) : String := Text.trimmed (String.ofList (raw.toList.takeWhile (· != '=')))

/-- The name and the value that an override sets. -/
def assignment (raw : String) : String × String :=
  (overriddenName raw, String.ofList (raw.toList.dropWhile (· != '=')).tail)

theorem assignment_of_assigns {raw name value : String} (h : Assigns raw name value) :
    assignment raw = (name, value) := by
  obtain ⟨before, rfl, hfree, rfl, -⟩ := h
  have hbefore : ∀ c ∈ before.toList, (c != '=') = true := fun c hc => by
    simpa using fun heq : c = '=' => hfree (heq ▸ hc)
  have hraw : (before ++ "=" ++ value).toList = before.toList ++ '=' :: value.toList := by simp
  rw [assignment, overriddenName, hraw, List.takeWhile_append_of_pos hbefore, List.dropWhile_append_of_pos hbefore]
  simp

theorem pairs_eq {raws : List String} {pairs : List (String × String)}
    (h : List.Forall₂ (fun raw pair => Assigns raw pair.1 pair.2) raws pairs) : pairs = raws.map assignment := by
  induction h with
  | nil => rfl
  | cons hassigns _ ih => rw [List.map_cons, assignment_of_assigns hassigns, ih]

theorem Gives.unique {old : Option Value} {text : String} {v w : Value} (hv : Gives old text v)
    (hw : Gives old text w) : v = w := by
  unfold Gives at hv hw
  split at hv
  · rename_i hboolean
    rw [if_pos hboolean] at hw
    obtain ⟨b, hb, rfl⟩ := hv
    obtain ⟨b', hb', rfl⟩ := hw
    rw [← spokenBoolean?_eq_some] at hb hb'
    rw [hb] at hb'
    rw [Option.some.inj hb']
  · rename_i hother
    rw [if_neg hother] at hw
    rw [hv, hw]

namespace Arguments

variable {m a b : Arguments} {pairs pairs' : List (String × String)} {name : String}

/-! ### what revised arguments depend on -/

theorem Revises.get?_of_not_set (h : Revises m pairs a) (hnone : lastValue? pairs name = none) :
    a.get? name = m.get? name := by
  cases hm : m.get? name with
  | none =>
    rw [← Option.not_isSome_iff_eq_none, h.isSome_get?]
    rintro (hthere | hnew)
    · rw [hm] at hthere
      cases hthere
    · obtain ⟨pair, hpair, rfl⟩ := List.mem_map.mp (mem_newNames.mp hnew).1
      obtain ⟨last, hlast⟩ := exists_lastValue? hpair
      rw [hnone] at hlast
      cases hlast
  | some v =>
    obtain ⟨entry, hfound, rfl⟩ := Option.map_eq_some_iff.mp hm
    have htext : entry.1 = .text name := Value.isText_iff.mp (by simpa using List.find?_some hfound)
    obtain ⟨i, hentry⟩ := List.mem_iff_getElem?.mp (List.mem_of_find?_eq_some hfound)
    have hkept : a.entries[i]? = some entry := by
      refine h.kept i entry hentry fun k hk => ?_
      obtain rfl : name = k := Value.text.inj (htext.symm.trans hk)
      exact hnone
    have hmem : (Value.text name, entry.2) ∈ a.entries := by
      rw [← htext]
      exact List.mem_of_getElem? hkept
    exact get?_of_mem hmem

theorem Revises.get?_congr (ha : Revises m pairs a) (hb : Revises m pairs' b)
    (hlast : ∀ name, lastValue? pairs name = lastValue? pairs' name) : a.get? = b.get? := by
  funext name
  cases hset : lastValue? pairs name with
  | none =>
    have hset' : lastValue? pairs' name = none := (hlast name).symm.trans hset
    rw [ha.get?_of_not_set hset, hb.get?_of_not_set hset']
  | some last =>
    have hset' : lastValue? pairs' name = some last := (hlast name).symm.trans hset
    obtain ⟨v, hv, hgives⟩ := ha.given name last hset
    obtain ⟨w, hw, hgives'⟩ := hb.given name last hset'
    rw [hv, hw, hgives.unique hgives']

/-- An entry with the value that its name has in a look-up, if its name is a text that has one there. -/
def renew (value? : String → Option Value) (entry : Value × Value) : Value × Value :=
  match entry.1 with
  | .text name => (entry.1, (value? name).getD entry.2)
  | _ => entry

theorem renew_of_other {value? : String → Option Value} {entry : Value × Value} (h : ∀ name, entry.1 ≠ .text name) :
    renew value? entry = entry := by
  unfold renew
  split
  · rename_i name hname
    exact absurd hname (h name)
  · rfl

theorem entries_eq_map_renew {entries : List (Value × Value)} (hnames : a.entries.map (·.1) = entries.map (·.1))
    (hother : ∀ (i : Nat) entry, entries[i]? = some entry → (∀ name, entry.1 ≠ .text name) →
      a.entries[i]? = some entry) : a.entries = entries.map (renew a.get?) := by
  refine List.ext_getElem? fun i => ?_
  have hname : (a.entries[i]?).map (·.1) = (entries[i]?).map (·.1) := by
    rw [← List.getElem?_map, hnames, List.getElem?_map]
  rw [List.getElem?_map]
  cases hentry : entries[i]? with
  | none =>
    rw [hentry, Option.map_none, Option.map_eq_none_iff] at hname
    rw [hname, Option.map_none]
  | some entry =>
    rw [hentry, Option.map_some, Option.map_eq_some_iff] at hname
    obtain ⟨⟨key, v⟩, hat, rfl⟩ := hname
    rw [Option.map_some]
    by_cases htext : ∃ name, entry.1 = .text name
    · obtain ⟨name, hname⟩ := htext
      rw [hname] at hat
      have hget : a.get? name = some v := get?_of_mem (List.mem_of_getElem? hat)
      simp only [hat, renew, hname, hget, Option.getD_some]
    · have hnone : ∀ name, entry.1 ≠ .text name := fun name hname => htext ⟨name, hname⟩
      rw [hother i entry hentry hnone, renew_of_other hnone]

theorem Revises.entries_eq (h : Revises m pairs a) :
    a.entries = (m.entries ++ (newNames m pairs).map fun name => (Value.text name, Value.null)).map
      (renew a.get?) := by
  refine entries_eq_map_renew ?_ fun i entry hentry hother => ?_
  · rw [h.names, List.map_append, List.map_map]
    rfl
  · rw [List.getElem?_append] at hentry
    split at hentry
    · exact h.kept i entry hentry fun name hname => absurd hname (hother name)
    · obtain ⟨name, -, rfl⟩ := List.mem_map.mp (List.mem_of_getElem? hentry)
      exact absurd rfl (hother name)

theorem Revises.eq_of_lasts (ha : Revises m pairs a) (hb : Revises m pairs' b)
    (hlast : ∀ name, lastValue? pairs name = lastValue? pairs' name) (hnew : newNames m pairs = newNames m pairs') :
    a = b := by
  refine Arguments.ext ?_
  rw [ha.entries_eq, hb.entries_eq, ha.get?_congr hb hlast, hnew]

theorem Revises.perm_of_lasts (ha : Revises m pairs a) (hb : Revises m pairs' b)
    (hlast : ∀ name, lastValue? pairs name = lastValue? pairs' name)
    (hnew : (newNames m pairs).Perm (newNames m pairs')) : a.entries.Perm b.entries := by
  rw [ha.entries_eq, hb.entries_eq, ha.get?_congr hb hlast]
  exact ((hnew.map _).append_left _).map _

/-! ### last values and new names of rows -/

theorem newNames_perm (m : Arguments) (h : pairs.Perm pairs') : (newNames m pairs).Perm (newNames m pairs') := by
  refine (List.perm_ext_iff_of_nodup (Text.nodup_eraseDups _) (Text.nodup_eraseDups _)).mpr fun name => ?_
  rw [← newNames, ← newNames, mem_newNames, mem_newNames, (h.map (·.1)).mem_iff]

theorem newNames_append_self (m : Arguments) (pairs : List (String × String)) :
    newNames m (pairs ++ pairs) = newNames m pairs := by
  have hnone : ∀ names : List String, names.removeAll names = [] := fun names => by simp [List.removeAll]
  rw [newNames, List.map_append, List.filter_append, List.eraseDups_append, hnone, newNames]
  simp

theorem lastValue?_append_self (pairs : List (String × String)) (name : String) :
    lastValue? (pairs ++ pairs) name = lastValue? pairs name := by
  rw [lastValue?, List.filter_append, List.getLast?_append, Option.or_self, lastValue?]

theorem lastValue?_map_assignment (raws : List String) (name : String) :
    lastValue? (raws.map assignment) name =
      ((raws.filter (overriddenName · == name)).getLast?).map fun raw => (assignment raw).2 := by
  have hfilter : (raws.map assignment).filter (·.1 == name) =
      (raws.filter (overriddenName · == name)).map assignment := by
    rw [List.filter_map]
    rfl
  rw [lastValue?, hfilter, List.getLast?_map, Option.map_map]
  rfl

end Arguments

/-! ### configurations -/

namespace Config

variable {c d d' : Config} {name : String} {xs ys : List String}

open Arguments (lastValue? newNames Revises)

theorem overrideAll_append (a : Arguments) (xs ys : List String) :
    a.overrideAll (xs ++ ys) = a.overrideAll xs >>= fun b => b.overrideAll ys := by
  induction xs generalizing a with
  | nil => rfl
  | cons raw rest ih =>
    rw [List.cons_append, Arguments.overrideAll, Arguments.overrideAll]
    cases a.override raw with
    | error fault => rfl
    | ok b => exact ih b

theorem withOverrides_append (c : Config) (name : String) (xs ys : List String) :
    c.withOverrides name (xs ++ ys) = c.withOverrides name xs >>= fun d => d.withOverrides name ys := by
  unfold withOverrides
  cases he : c.experiment name with
  | error fault => rfl
  | ok e =>
    by_cases hxs : xs = []
    · subst hxs
      simp only [List.nil_append, if_true, Bind.bind, Except.bind, he]
    · have hboth : xs ++ ys ≠ [] := fun hnil => hxs (List.append_eq_nil_iff.mp hnil).1
      simp only [if_neg hxs, if_neg hboth, overrideAll_append]
      cases ha : (e.args.getD .empty).overrideAll xs with
      | error fault => rfl
      | ok a =>
        -- what the second half finds is the experiment that the first half has left
        have hleft : experiment { c with experiments := c.experiments.insert name { e with args := some a } } name =
            .ok { e with args := some a } := by
          simp [experiment]
        simp only [Bind.bind, Except.bind, hleft, Option.getD_some]
        by_cases hys : ys = []
        · subst hys
          rfl
        · rw [if_neg hys]
          cases a.overrideAll ys with
          | error fault => rfl
          | ok b => simp only [Table.insert_insert]

theorem accepted_iff : (∃ d, c.withOverrides name xs = .ok d) ↔
    ∃ e, c.experiments.get? name = some e ∧ ∀ raw ∈ xs, (e.args.getD .empty).refusal? raw = none := by
  rw [← fault?_eq_none, fault?_withOverrides, refusal?]
  cases c.experiments.get? name with
  | none => simp
  | some e => simp [List.findSome?_eq_none_iff]

theorem revises_of_withOverrides {e : Experiment} (he : c.experiments.get? name = some e)
    (h : c.withOverrides name xs = .ok d) (hsome : xs ≠ []) :
    ∃ args, Revises (e.args.getD .empty) (xs.map assignment) args ∧
      d = { c with experiments := c.experiments.insert name { e with args := some args } } := by
  obtain ⟨args, pairs, hpairs, hrevises, hd⟩ := (overridden_of_withOverrides h).revises he hsome
  rw [pairs_eq hpairs] at hrevises
  exact ⟨args, hrevises, hd⟩

theorem withOverrides_again (h : c.withOverrides name xs = .ok d) : d.withOverrides name xs = .ok d := by
  by_cases hnone : xs = []
  · obtain rfl : d = c := (overridden_of_withOverrides h).unchanged hnone
    exact h
  · obtain ⟨e, he, haccepted⟩ := accepted_iff.mp ⟨d, h⟩
    obtain ⟨d', hd'⟩ : ∃ d', c.withOverrides name (xs ++ xs) = .ok d' :=
      accepted_iff.mpr ⟨e, he, fun raw hraw => haccepted raw (by simpa using hraw)⟩
    obtain ⟨args, hrevises, rfl⟩ := revises_of_withOverrides he h hnone
    obtain ⟨args', hrevises', rfl⟩ := revises_of_withOverrides he hd' (by simp [hnone])
    rw [List.map_append] at hrevises'
    have hsame : args' = args := hrevises'.eq_of_lasts hrevises (fun name => Arguments.lastValue?_append_self _ name)
      (Arguments.newNames_append_self _ _)
    rw [withOverrides_append, h, hsame] at hd'
    exact hd'

/-- Two configurations that are the same but for the order of an experiment's arguments. -/
structure SameArguments (name : String) (c d : Config) : Prop where
  sections : d = { c with experiments := d.experiments }
  others : ∀ other, other ≠ name → d.experiments.get? other = c.experiments.get? other
  arguments : ∃ e f, c.experiments.get? name = some e ∧ d.experiments.get? name = some f ∧
    f = { e with args := f.args } ∧ f.args.isSome = e.args.isSome ∧
    (e.args.getD .empty).entries.Perm (f.args.getD .empty).entries ∧
    ∀ key, (f.args.getD .empty).get? key = (e.args.getD .empty).get? key

theorem withOverrides_perm {e : Experiment} (he : c.experiments.get? name = some e)
    (hxs : c.withOverrides name xs = .ok d) (hys : c.withOverrides name ys = .ok d') (hperm : xs.Perm ys)
    (horder : ∀ key, xs.filter (overriddenName · == key) = ys.filter (overriddenName · == key)) :
    SameArguments name d d' ∧
      ((∀ raw ∈ xs, ((e.args.getD .empty).get? (overriddenName raw)).isSome) → d = d') := by
  by_cases hnone : xs = []
  · obtain rfl : d = c := (overridden_of_withOverrides hxs).unchanged hnone
    obtain rfl : d' = d := (overridden_of_withOverrides hys).unchanged (List.nil_perm.mp (hnone ▸ hperm))
    exact ⟨⟨rfl, fun _ _ => rfl, e, e, he, he, rfl, rfl, .refl _, fun _ => rfl⟩, fun _ => rfl⟩
  · have hsome : ys ≠ [] := fun hnil => hnone (List.perm_nil.mp (hnil ▸ hperm))
    obtain ⟨args, hargs, rfl⟩ := revises_of_withOverrides he hxs hnone
    obtain ⟨args', hargs', rfl⟩ := revises_of_withOverrides he hys hsome
    have hlast : ∀ key, lastValue? (xs.map assignment) key = lastValue? (ys.map assignment) key := fun key => by
      rw [Arguments.lastValue?_map_assignment, Arguments.lastValue?_map_assignment, horder]
    have hnew := Arguments.newNames_perm (e.args.getD .empty) (hperm.map assignment)
    refine ⟨⟨rfl, fun other hother => ?_, { e with args := some args }, { e with args := some args' }, ?_, ?_, rfl, rfl,
      ?_, fun key => ?_⟩, fun hthere => ?_⟩
    · rw [Table.get?_insert, Table.get?_insert, if_neg hother, if_neg hother]
    · exact (Table.get?_insert ..).trans (if_pos rfl)
    · exact (Table.get?_insert ..).trans (if_pos rfl)
    · exact hargs.perm_of_lasts hargs' hlast hnew
    · exact congrFun (hargs'.get?_congr hargs fun key => (hlast key).symm) key
    · -- without new names there is only one order
      have hold : newNames (e.args.getD .empty) (xs.map assignment) = [] := by
        refine List.eq_nil_iff_forall_not_mem.mpr fun key hkey => ?_
        obtain ⟨hset, hunset⟩ := Arguments.mem_newNames.mp hkey
        rw [List.map_map] at hset
        obtain ⟨raw, hraw, rfl⟩ := List.mem_map.mp hset
        have hisSome := hthere raw hraw
        rw [show overriddenName raw = (Prod.fst ∘ assignment) raw from rfl, hunset] at hisSome
        cases hisSome
      rw [hold] at hnew
      have hsame : args = args' := hargs.eq_of_lasts hargs' hlast (by rw [hold, List.nil_perm.mp hnew])
      rw [hsame]

/-- **Overrides in a row.**  To carry out overrides in one go is to carry out the first of them and then, on what comes
of it, the others, with the same configuration or the same fault in the end; and what has been carried out changes
nothing when it is carried out again.  Whether overrides are accepted does not depend on their order.  Two orders that
agree on the overrides of each name give each argument the same value, and if all names were there before, the
arguments are in the same order too. -/
theorem override_order (c : Config) (name : String) (xs ys : List String) :
    c.withOverrides name (xs ++ ys) = (c.withOverrides name xs >>= fun d => d.withOverrides name ys) ∧
    (∀ d, c.withOverrides name xs = .ok d → d.withOverrides name xs = .ok d) ∧
    (xs.Perm ys →
      ((∃ d, c.withOverrides name xs = .ok d) ↔ ∃ d, c.withOverrides name ys = .ok d) ∧
      ∀ d d', c.withOverrides name xs = .ok d → c.withOverrides name ys = .ok d' →
        (∀ key, xs.filter (overriddenName · == key) = ys.filter (overriddenName · == key)) →
        SameArguments name d d' ∧
        ∀ e, c.experiments.get? name = some e →
          (∀ raw ∈ xs, ((e.args.getD .empty).get? (overriddenName raw)).isSome) → d = d') := by
  refine ⟨withOverrides_append c name xs ys, fun d => withOverrides_again, fun hperm => ⟨?_, ?_⟩⟩
  · rw [accepted_iff, accepted_iff]
    simp only [hperm.mem_iff]
  · intro d d' hxs hys horder
    obtain ⟨e, he, -⟩ := accepted_iff.mp ⟨d, hxs⟩
    obtain ⟨hsame, hequal⟩ := withOverrides_perm he hxs hys hperm horder
    refine ⟨hsame, fun e' he' => ?_⟩
    obtain rfl : e = e' := Option.some.inj (he.symm.trans he')
    exact hequal

/-- Two overrides of new names, with two of one name that is there between them. -/
def rowOfOverrides : List String := ["threads=4", " mode=a", "seed=1", "mode =b=c"]

/-- The same with the new names the other way round. -/
def otherRow : List String := [" mode=a", "seed=1", "mode =b=c", "threads=4"]

theorem filter_otherRow (key : String) :
    rowOfOverrides.filter (overriddenName · == key) = otherRow.filter (overriddenName · == key) := by
  have hthreads : overriddenName "threads=4" = "threads" := by decide
  have hmode : overriddenName " mode=a" = "mode" ∧ overriddenName "mode =b=c" = "mode" := by decide
  have hseed : overriddenName "seed=1" = "seed" := by decide
  by_cases hkey : "threads" = key
  · subst hkey
    simp [rowOfOverrides, otherRow, hthreads, hmode, hseed]
  · simp [rowOfOverrides, otherRow, List.filter_cons, hthreads, hkey]

theorem override_order_sample :
    ∃ d d' e e', mixedConfig.withOverrides "bench" rowOfOverrides = .ok d ∧
      mixedConfig.withOverrides "bench" otherRow = .ok d' ∧ d.withOverrides "bench" rowOfOverrides = .ok d ∧
      SameArguments "bench" d d' ∧ d.experiments.get? "bench" = some e ∧ d'.experiments.get? "bench" = some e' ∧
      (e.args.getD .empty).shownNames = [some "mode", some "10", some "warm", some "threads", some "seed"] ∧
      (e'.args.getD .empty).shownNames = [some "mode", some "10", some "warm", some "seed", some "threads"] ∧
      ∃ f, mixedConfig.withOverrides "bench" ["warm=on", " mode=a"] = .ok f ∧
        mixedConfig.withOverrides "bench" [" mode=a", "warm=on"] = .ok f := by
  obtain ⟨d, hd, e, he, hnames⟩ : ∃ d, mixedConfig.withOverrides "bench" rowOfOverrides = .ok d ∧
      ∃ e, d.experiments.get? "bench" = some e ∧
        (e.args.getD .empty).shownNames = [some "mode", some "10", some "warm", some "threads", some "seed"] :=
    ⟨_, rfl, _, rfl, rfl⟩
  obtain ⟨d', hd', e', he', hnames'⟩ : ∃ d', mixedConfig.withOverrides "bench" otherRow = .ok d' ∧
      ∃ e', d'.experiments.get? "bench" = some e' ∧
        (e'.args.getD .empty).shownNames = [some "mode", some "10", some "warm", some "seed", some "threads"] :=
    ⟨_, rfl, _, rfl, rfl⟩
  obtain ⟨-, hagain, hperm⟩ := override_order mixedConfig "bench" rowOfOverrides otherRow
  obtain ⟨-, hsame⟩ := hperm (by decide)
  refine ⟨d, d', e, e', hd, hd', hagain d hd, (hsame d d' hd hd' filter_otherRow).1, he, he', hnames, hnames', ?_⟩
  -- both names of these two were there before
  obtain ⟨-, -, hpair⟩ := override_order mixedConfig "bench" ["warm=on", " mode=a"] [" mode=a", "warm=on"]
  obtain ⟨f, hf⟩ : ∃ f, mixedConfig.withOverrides "bench" ["warm=on", " mode=a"] = .ok f := ⟨_, rfl⟩
  obtain ⟨haccepted, hequal⟩ := hpair (by decide)
  obtain ⟨f', hf'⟩ := haccepted.mp ⟨f, hf⟩
  have hwarm : overriddenName "warm=on" = "warm" := by decide
  have hmode : overriddenName " mode=a" = "mode" := by decide
  obtain ⟨-, hthere⟩ := hequal f f' hf hf' fun key => by
    by_cases hkey : "mode" = key
    · subst hkey
      simp [hwarm, hmode]
    · simp [List.filter_cons, hmode, hkey]
  obtain rfl : f = f' := hthere _ rfl (by decide)
  exact ⟨f, hf, hf'⟩

end Config

end Fleet
