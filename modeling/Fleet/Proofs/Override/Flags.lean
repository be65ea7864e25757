import Fleet.Proofs.Launch
import Fleet.Proofs.Override.Revision

/-!
# Overridden arguments on the command line

On the command line a name is a text, whatever value the configuration has for it; an override only knows names that
are texts there too.  So names on the command line stay distinct exactly if no override sets the text of a name that is
no text itself (`flags_overridden`).  An override of such a name adds a second argument, which looks like the first
(`doubled_flag`).
-/

namespace Fleet

open Yaml (Value)

namespace Arguments

variable {m a : Arguments} {pairs : List (String × String)} {name : String} {i : Nat} {entry : Value × Value}

/-- The names of arguments as texts, as far as they have one. -/
def shownNames (a : Arguments) : List (Option String) := a.entries.map (·.1.scalarText?)

theorem Revises.shownNames_eq (h : Revises m pairs a) :
    a.shownNames = m.shownNames ++ (newNames m pairs).map some := by
  have hnames : a.shownNames = (a.entries.map (·.1)).map Value.scalarText? := by
    rw [List.map_map]
    rfl
  rw [hnames, h.names, List.map_append, List.map_map, List.map_map]
  rfl

theorem mem_newNames : name ∈ newNames m pairs ↔ name ∈ pairs.map (·.1) ∧ m.get? name = none := by
  rw [newNames, List.mem_eraseDups, List.mem_filter, Option.isNone_iff_eq_none]

theorem get?_eq_none (hm : m.shownNames.Nodup) (hentry : entry ∈ m.entries)
    (hshown : entry.1.scalarText? = some name) (hother : entry.1 ≠ .text name) : m.get? name = none := by
  rw [← Option.not_isSome_iff_eq_none, isSome_get?]
  intro hmem
  obtain ⟨e, he, hname⟩ := List.mem_map.mp hmem
  have hsame : e.1.scalarText? = entry.1.scalarText? := by
    rw [hname, hshown]
    rfl
  have heq : e = entry := List.inj_on_of_nodup_map hm he hentry hsame
  exact hother (heq ▸ hname)

/-- The names that are shown stay distinct exactly if no name is set that only looks like one that is there. -/
theorem Revises.nodup_shownNames (h : Revises m pairs a) (hm : m.shownNames.Nodup) :
    a.shownNames.Nodup ↔
      ∀ pair ∈ pairs, ∀ entry ∈ m.entries, entry.1.scalarText? = some pair.1 → entry.1 = .text pair.1 := by
  have hnew : ((newNames m pairs).map some).Nodup :=
    (List.nodup_map_iff fun _ _ => Option.some.inj).mpr (Text.nodup_eraseDups _)
  rw [h.shownNames_eq, List.nodup_append]
  constructor
  · rintro ⟨-, -, hapart⟩ pair hpair entry hentry hshown
    by_contra hother
    have hnone : m.get? pair.1 = none := get?_eq_none hm hentry hshown hother
    have hmem : pair.1 ∈ newNames m pairs := mem_newNames.mpr ⟨List.mem_map_of_mem hpair, hnone⟩
    exact hapart _ (List.mem_map_of_mem hentry) _ (List.mem_map_of_mem hmem) hshown
  · intro htexts
    refine ⟨hm, hnew, fun shown hold other hadded heq => ?_⟩
    obtain ⟨name, hname, rfl⟩ := List.mem_map.mp hadded
    obtain ⟨entry, hentry, hshown⟩ := List.mem_map.mp hold
    obtain ⟨hset, hnone⟩ := mem_newNames.mp hname
    obtain ⟨pair, hpair, rfl⟩ := List.mem_map.mp hset
    have htext : entry.1 = .text pair.1 := htexts pair hpair entry hentry (hshown.trans heq)
    have hsome : (m.get? pair.1).isSome = true :=
      Arguments.isSome_get?.mpr (List.mem_map.mpr ⟨entry, hentry, htext⟩)
    rw [hnone] at hsome
    cases hsome

/-! ### one argument -/

theorem find?_text_of_mem {v : Value} {entries : List (Value × Value)} (hd : Value.Distinct entries)
    (h : (.text name, v) ∈ entries) : (entries.find? fun e => e.1.isText name) = some (.text name, v) := by
  induction entries with
  | nil => cases h
  | cons e rest ih =>
    obtain ⟨hfirst, hrest⟩ := List.pairwise_cons.mp hd
    rcases List.mem_cons.mp h with rfl | h
    · rw [List.find?_cons_of_pos (by simp [Value.isText])]
    · have hother : e.1.isText name = false := by
        rw [← Value.same_text]
        exact hfirst _ h
      rw [List.find?_cons_of_neg (by simp [hother])]
      exact ih hrest h

theorem get?_of_mem {v : Value} (h : (.text name, v) ∈ a.entries) : a.get? name = some v := by
  rw [get?, find?_text_of_mem a.distinct h, Option.map_some]

theorem Revises.getElem?_of_text (h : Revises m pairs a) (hentry : m.entries[i]? = some entry)
    (htext : entry.1 = .text name) {last : String} (hlast : lastValue? pairs name = some last) :
    ∃ v, a.entries[i]? = some (.text name, v) ∧ Gives (m.get? name) last v := by
  obtain ⟨v, hv, hgives⟩ := h.given name last hlast
  refine ⟨v, ?_, hgives⟩
  have hname : (a.entries.map (·.1))[i]? = some (.text name) := by
    have hlt : i < (m.entries.map (·.1)).length := by
      rw [List.length_map]
      exact (List.getElem?_eq_some_iff.mp hentry).1
    rw [h.names, List.getElem?_append_left hlt, List.getElem?_map, hentry, Option.map_some, htext]
  rw [List.getElem?_map, Option.map_eq_some_iff] at hname
  obtain ⟨⟨k, w⟩, hat, rfl⟩ := hname
  have hget : a.get? name = some w := get?_of_mem (List.mem_of_getElem? hat)
  obtain rfl : w = v := Option.some.inj (hget.symm.trans hv)
  exact hat

theorem Revises.eq_of_text (h : Revises m pairs a) (hm : m.shownNames.Nodup) (hentry : m.entries[i]? = some entry)
    (htext : entry.1 = .text name) {j : Nat} (hj : a.shownNames[j]? = some (some name)) : j = i := by
  have hi : m.shownNames[i]? = some (some name) := by
    rw [shownNames, List.getElem?_map, hentry, Option.map_some, htext]
    rfl
  have hlt : i < m.shownNames.length := (List.getElem?_eq_some_iff.mp hi).1
  rw [h.shownNames_eq, List.getElem?_append] at hj
  split at hj
  · exact ((List.getElem?_inj hlt hm).mp (hi.trans hj.symm)).symm
  · obtain ⟨new, hnew, heq⟩ := List.mem_map.mp (List.mem_of_getElem? hj)
    obtain rfl : new = name := Option.some.inj heq
    have hsome : (m.get? new).isSome = true :=
      Arguments.isSome_get?.mpr (List.mem_map.mpr ⟨entry, List.mem_of_getElem? hentry, htext⟩)
    rw [(mem_newNames.mp hnew).2] at hsome
    cases hsome

/-- An argument whose name only looks like one that is set stays as it was, and another is shown with its name. -/
theorem Revises.doubled (h : Revises m pairs a) (hm : m.shownNames.Nodup) (hentry : m.entries[i]? = some entry)
    (hshown : entry.1.scalarText? = some name) (hother : entry.1 ≠ .text name) (hset : name ∈ pairs.map (·.1)) :
    a.entries[i]? = some entry ∧ ∃ j, i < j ∧ a.shownNames[j]? = some (some name) := by
  have hnone : m.get? name = none := get?_eq_none hm (List.mem_of_getElem? hentry) hshown hother
  constructor
  · refine h.kept i entry hentry fun k hk => ?_
    have hkname : k = name := by
      rw [hk] at hshown
      exact Option.some.inj hshown
    exact absurd (hkname ▸ hk) hother
  · obtain ⟨k, hk⟩ := List.mem_iff_getElem?.mp (mem_newNames.mpr ⟨hset, hnone⟩)
    have hlt : i < m.shownNames.length := by
      rw [shownNames, List.length_map]
      exact (List.getElem?_eq_some_iff.mp hentry).1
    refine ⟨m.shownNames.length + k, by omega, ?_⟩
    rw [h.shownNames_eq, List.getElem?_append_right (by omega), Nat.add_sub_cancel_left, List.getElem?_map, hk]
    rfl

theorem exists_lastValue? {pair : String × String} (h : pair ∈ pairs) :
    ∃ last, lastValue? pairs pair.1 = some last := by
  have hmem : pair ∈ pairs.filter (·.1 == pair.1) := List.mem_filter.mpr ⟨h, by simp⟩
  cases hlast : (pairs.filter (·.1 == pair.1)).getLast? with
  | none =>
    rw [List.getLast?_eq_none_iff.mp hlast] at hmem
    cases hmem
  | some last => exact ⟨last.2, by rw [lastValue?, hlast, Option.map_some]⟩

end Arguments

namespace Launch

open Arguments (lastValue?)

variable {c d : Config} {name : String} {e : Experiment} {overrides : List String} {options : LaunchOptions}
  {l : Launch}

theorem getElem?_of_flags {entries : List (Value × Value)} {fs : List (String × String)}
    (h : flags name entries = .ok fs) {i : Nat} {entry : Value × Value} (hentry : entries[i]? = some entry) :
    ∃ f, fs[i]? = some f ∧ entry.1.scalarText? = some f.1 ∧ entry.2.scalarText? = some f.2 := by
  have hat : (fs.map fun f => (some f.1, some f.2))[i]? = some (entry.1.scalarText?, entry.2.scalarText?) := by
    rw [← map_flags h, List.getElem?_map, hentry, Option.map_some]
  rw [List.getElem?_map, Option.map_eq_some_iff] at hat
  obtain ⟨f, hf, heq⟩ := hat
  obtain ⟨hname, hvalue⟩ := Prod.mk.inj heq
  exact ⟨f, hf, hname.symm, hvalue.symm⟩

theorem shownNames_of_flags {args : Arguments} {fs : List (String × String)} (h : flags name args.entries = .ok fs) :
    args.shownNames = (fs.map (·.1)).map some := by
  have hnames := congrArg (List.map Prod.fst) (map_flags h)
  rw [List.map_map, List.map_map] at hnames
  rw [List.map_map]
  exact hnames

theorem revises_of_resolve (he : c.experiments.get? name = some e) (hd : c.withOverrides name overrides = .ok d)
    (hl : resolve d name options = .ok l) :
    ∃ args pairs, List.Forall₂ (fun raw pair => Assigns raw pair.1 pair.2) overrides pairs ∧
      Arguments.Revises (e.args.getD .empty) pairs args ∧ flags name args.entries = .ok l.args := by
  have hoverridden := Config.overridden_of_withOverrides hd
  obtain ⟨e', he', -, -, hargs, -⟩ := parts_of_resolve hl
  by_cases hnone : overrides = []
  · subst hnone
    obtain rfl : d = c := hoverridden.unchanged rfl
    obtain rfl : e = e' := Option.some.inj (he.symm.trans he')
    exact ⟨_, [], .nil, .refl _, hargs⟩
  · obtain ⟨args, pairs, hpairs, hrevises, rfl⟩ := hoverridden.revises he hnone
    rw [Table.get?_insert, if_pos rfl] at he'
    cases he'
    exact ⟨args, pairs, hpairs, hrevises, hargs⟩

/-- **Overridden arguments on the command line.**  If the configured arguments of an experiment are shown with
different names, then so are those of its launch, exactly if no override sets the text of a name that is no text
itself.  An override of a name that is a text gives the one argument of this name its last value, at its old place.  An
override that sets what a name only looks like leaves the argument as it was, and another argument behind it is shown
with the same name. -/
theorem flags_overridden (he : c.experiments.get? name = some e) (hm : (e.args.getD .empty).shownNames.Nodup)
    (hd : c.withOverrides name overrides = .ok d) (hl : resolve d name options = .ok l) :
    ∃ pairs, List.Forall₂ (fun raw pair => Assigns raw pair.1 pair.2) overrides pairs ∧
      ((l.args.map (·.1)).Nodup ↔ ∀ pair ∈ pairs, ∀ entry ∈ (e.args.getD .empty).entries,
        entry.1.scalarText? = some pair.1 → entry.1 = .text pair.1) ∧
      ∀ pair ∈ pairs, ∀ (i : Nat) entry, (e.args.getD .empty).entries[i]? = some entry →
        entry.1.scalarText? = some pair.1 →
        (entry.1 = .text pair.1 →
          (∀ j : Nat, l.args[j]?.map (·.1) = some pair.1 → j = i) ∧
          ∃ last v text, lastValue? pairs pair.1 = some last ∧ Gives ((e.args.getD .empty).get? pair.1) last v ∧
            v.scalarText? = some text ∧ l.args[i]? = some (pair.1, text)) ∧
        (entry.1 ≠ .text pair.1 →
          (∃ text, entry.2.scalarText? = some text ∧ l.args[i]? = some (pair.1, text)) ∧
          ∃ j, i < j ∧ l.args[j]?.map (·.1) = some pair.1) := by
  obtain ⟨args, pairs, hpairs, hrevises, hflags⟩ := revises_of_resolve he hd hl
  have hshownNames := shownNames_of_flags hflags
  have hat : ∀ (j : Nat) (shown : String),
      args.shownNames[j]? = some (some shown) ↔ l.args[j]?.map (·.1) = some shown := fun j shown => by
    rw [hshownNames, List.getElem?_map, List.getElem?_map]
    cases l.args[j]? <;> simp
  refine ⟨pairs, hpairs, ?_, fun pair hpair i entry hentry hshown => ⟨fun htext => ?_, fun hother => ?_⟩⟩
  · rw [← hrevises.nodup_shownNames hm, hshownNames, List.nodup_map_iff fun _ _ => Option.some.inj]
  · refine ⟨fun j hj => hrevises.eq_of_text hm hentry htext ((hat j pair.1).mpr hj), ?_⟩
    obtain ⟨last, hlast⟩ := Arguments.exists_lastValue? hpair
    obtain ⟨v, hv, hgives⟩ := hrevises.getElem?_of_text hentry htext hlast
    obtain ⟨⟨shown, text⟩, hf, hname, hvalue⟩ := getElem?_of_flags hflags hv
    obtain rfl : pair.1 = shown := Option.some.inj hname
    exact ⟨last, v, text, hlast, hgives, hvalue, hf⟩
  · obtain ⟨hold, j, hij, hj⟩ := hrevises.doubled hm hentry hshown hother (List.mem_map_of_mem hpair)
    obtain ⟨⟨shown, text⟩, hf, hname, hvalue⟩ := getElem?_of_flags hflags hold
    obtain rfl : pair.1 = shown := Option.some.inj (hshown.symm.trans hname)
    exact ⟨⟨text, hvalue, hf⟩, j, hij, (hat j pair.1).mp hj⟩

theorem flags_overridden_sample :
    ∃ d l, Config.mixedConfig.withOverrides "bench" ["warm=on", "mode=a", "x=1", "mode=b=c"] = .ok d ∧
      resolve d "bench" ⟨none, none, false⟩ = .ok l ∧
      l.args = [("mode", "b=c"), ("10", "old"), ("warm", "true"), ("x", "1")] ∧ (l.args.map (·.1)).Nodup ∧
      ∀ j : Nat, l.args[j]?.map (·.1) = some "warm" → j = 2 := by
  obtain ⟨e, he, hargs⟩ : ∃ e, Config.mixedConfig.experiments.get? "bench" = some e ∧
      e.args = some Config.mixedArguments := ⟨_, rfl, rfl⟩
  have hm : (e.args.getD .empty).shownNames.Nodup := by
    rw [hargs]
    decide
  obtain ⟨d, l, hd, hl, hflags⟩ : ∃ d l,
      Config.mixedConfig.withOverrides "bench" ["warm=on", "mode=a", "x=1", "mode=b=c"] = .ok d ∧
      resolve d "bench" ⟨none, none, false⟩ = .ok l ∧
      l.args = [("mode", "b=c"), ("10", "old"), ("warm", "true"), ("x", "1")] := ⟨_, _, rfl, rfl, rfl⟩
  obtain ⟨pairs, hpairs, hdistinct, hplaces⟩ := flags_overridden he hm hd hl
  obtain rfl : pairs = [("warm", "on"), ("mode", "a"), ("x", "1"), ("mode", "b=c")] :=
    pairs_unique hpairs rfl
  have hwarm := (hplaces ("warm", "on") (by simp) 2 (.text "warm", .bool false) (by rw [hargs]; rfl) rfl).1 rfl
  refine ⟨d, l, hd, hl, hflags, hdistinct.mpr fun pair hpair entry hentry hshown => ?_, hwarm.1⟩
  -- the one name that is no text is shown as `10`, and no override sets that
  have hset : ∀ pair ∈ [("warm", "on"), ("mode", "a"), ("x", "1"), ("mode", "b=c")], pair.1 ≠ "10" := by decide
  rw [hargs] at hentry
  simp only [Option.getD_some, Config.mixedArguments, List.mem_cons, List.not_mem_nil, or_false] at hentry
  rcases hentry with rfl | rfl | rfl
  · exact congrArg Value.text (Option.some.inj hshown)
  · exact absurd (Option.some.inj hshown).symm (hset pair hpair)
  · exact congrArg Value.text (Option.some.inj hshown)

/-- **A flag that comes twice.**  An argument whose name is a number is not found by an override, though both are shown
with the same name on the command line: the override adds a second flag. -/
theorem doubled_flag :
    Config.mixedArguments.shownNames = [some "mode", some "10", some "warm"] ∧
    ∃ d l, Config.mixedConfig.withOverrides "bench" ["10=new"] = .ok d ∧
      resolve d "bench" ⟨none, none, false⟩ = .ok l ∧ ¬ (l.args.map (·.1)).Nodup ∧
      l.command [⟨"a", "a.ex.net"⟩] "a" 0 false =
        "/opt/bench --mode=rw --10=old --warm=false --10=new --hostname=a --host_id=0 --remotes=" :=
  ⟨by decide, _, _, rfl, rfl, by decide, rfl⟩

end Launch

end Fleet
