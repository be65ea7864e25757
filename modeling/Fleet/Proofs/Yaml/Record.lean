import Fleet.Proofs.Yaml.Reading
import Fleet.Table

/-!
# Records and tables

A table is written as a mapping with its texts as keys, and a record as a mapping with the names of those fields as keys
that are there (`present`).  Reading finds the fields by their names (`fields_keyed`), and gives a field that is not
there the value for that case (`orElse_present`).
-/

namespace Fleet.Yaml

open Reader

variable {α : Type} {d : Document} {depth : Nat}

/-! ### values by name -/

def keyed (fs : List (String × Value)) : List (Value × Value) := fs.map fun f => (.text f.1, f.2)

def nodesOf (fs : List (String × Value)) : List (String × Node) := fs.map fun f => (f.1, f.2.toNode)

theorem entries_mapping (es : List (Value × Value)) :
    entries d (depth + 1) (Value.mapping es).toNode = pure (es.map fun e => (e.1.toNode, e.2.toNode), depth) := by
  rw [toNode_mapping]
  rfl

theorem valueEntries_mapping {es : List (Value × Value)} (h : Means d (depth + 1) (.mapping es)) :
    valueEntries d (depth + 1) (Value.mapping es).toNode = pure es := by
  rw [valueEntries, entries_mapping, pure_bind]
  change List.mapM _ (es.map _) = _
  rw [List.mapM_map, mapM_eq_pure (g := id), List.map_id]
  intro e he
  obtain ⟨hkey, hvalue⟩ := h.entry e he
  rw [Means] at hkey hvalue
  simp only [Function.comp_apply, hkey, hvalue, pure_bind]
  rfl

theorem entries_keyed (fs : List (String × Value)) :
    entries d (depth + 1) (Value.mapping (keyed fs)).toNode =
      pure (fs.map fun f => ((Value.text f.1).toNode, f.2.toNode), depth) := by
  rw [entries_mapping, keyed, List.map_map]
  rfl

theorem means_keyed {fs : List (String × Value)} (hnames : (fs.map (·.1)).Nodup)
    (h : ∀ f ∈ fs, Means d depth f.2) : Means d (depth + 1) (.mapping (keyed fs)) := by
  refine means_mapping ?_ fun e he => ?_
  · refine List.pairwise_map.mpr ((List.pairwise_map.mp hnames).imp fun hne => ?_)
    simpa [Value.same] using hne
  · obtain ⟨f, hf, rfl⟩ := List.mem_map.mp he
    exact ⟨means_text f.1, h f hf⟩

theorem textEntries_keyed {l : List (String × α)} {toValue : α → Value} {reader : Nat → Node → Reader α}
    (h : ∀ e ∈ l, reader depth (toValue e.2).toNode = pure e.2) :
    textEntries d (depth + 1) reader (Value.mapping (keyed (l.map fun e => (e.1, toValue e.2)))).toNode = pure l := by
  rw [textEntries, entries_keyed, pure_bind, List.map_map]
  change List.mapM _ (l.map _) = _
  rw [List.mapM_map, mapM_eq_pure (g := id), List.map_id]
  intro e he
  simp only [Function.comp_apply, text_text, h e he, pure_bind]
  rfl

theorem fields_keyed {names : List String} (hnames : names.Nodup) {fs : List (String × Value)}
    (h : (fs.map (·.1)).Sublist names) :
    fields d (depth + 1) names (Value.mapping (keyed fs)).toNode = pure (nodesOf fs, depth) := by
  have hnamed : (fs.map fun f => ((Value.text f.1).toNode, f.2.toNode)).mapM (fun e : Node × Node => do
      let key ← Reader.text d e.1
      pure (key, e.2)) = pure (nodesOf fs) := by
    rw [List.mapM_map]
    refine mapM_eq_pure fun f _ => ?_
    simp only [Function.comp_apply, text_text, pure_bind]
  have hkeys : (nodesOf fs).map (·.1) = fs.map (·.1) := by
    rw [nodesOf, List.map_map]
    rfl
  have hknown : (nodesOf fs).filter (fun e => names.contains e.1) = nodesOf fs := by
    refine List.filter_eq_self.mpr fun e he => List.contains_iff_mem.mpr (h.subset ?_)
    exact hkeys ▸ List.mem_map_of_mem he
  rw [fields, entries_keyed, pure_bind]
  change (_ >>= fun named => _) = _
  rw [hnamed, pure_bind]
  simp only [hknown, hkeys]
  rw [if_pos (h.nodup hnames)]

/-! ### fields that may be absent -/

/-- The fields of a record that are there. -/
def present (slots : List (String × Option Value)) : List (String × Value) :=
  slots.filterMap fun slot => slot.2.map (slot.1, ·)

theorem keys_present (slots : List (String × Option Value)) :
    ((present slots).map (·.1)).Sublist (slots.map (·.1)) := by
  induction slots with
  | nil => exact .slnil
  | cons slot slots ih =>
    obtain ⟨name, o⟩ := slot
    cases o with
    | none => exact ih.cons _
    | some v => exact ih.cons_cons _

theorem lookup_present {slots : List (String × Option Value)} (h : (slots.map (·.1)).Nodup) {name : String}
    {o : Option Value} (hslot : (name, o) ∈ slots) :
    (nodesOf (present slots)).lookup name = o.map Value.toNode := by
  induction slots with
  | nil => cases hslot
  | cons slot slots ih =>
    obtain ⟨k, v⟩ := slot
    obtain ⟨hk, hslots⟩ := List.nodup_cons.mp h
    rcases List.mem_cons.mp hslot with heq | hrest
    · obtain ⟨rfl, rfl⟩ := Prod.mk.inj heq
      cases o with
      | none =>
        refine List.lookup_eq_none_iff.mpr fun e he => bne_iff_ne.mpr fun heq => hk ?_
        obtain ⟨f, hf, rfl⟩ := List.mem_map.mp he
        exact heq ▸ (keys_present slots).subset (List.mem_map_of_mem hf)
      | some v => exact List.lookup_cons_self
    · have hne : name ≠ k := by
        rintro rfl
        exact hk (List.mem_map.mpr ⟨_, hrest, rfl⟩)
      cases v with
      | none => exact ih hslots hrest
      | some v => exact (Table.lookup_cons_if k name _ _).trans ((if_neg hne).trans (ih hslots hrest))

theorem means_optional {toValue : α → Value} {o : Option α} (h : ∀ x ∈ o, Means d depth (toValue x)) :
    ∀ v, o.map toValue = some v → Means d depth v := by
  intro v hv
  obtain ⟨x, hx, rfl⟩ := Option.map_eq_some_iff.mp hv
  exact h x hx

theorem means_ite {b : Bool} {w : Value} (h : Means d depth w) :
    ∀ v, (if b then none else some w) = some v → Means d depth v := by
  intro v hv
  split at hv
  · cases hv
  · exact Option.some.inj hv ▸ h

theorem means_record {slots : List (String × Option Value)} (hnames : (slots.map (·.1)).Nodup)
    (h : ∀ slot ∈ slots, ∀ v, slot.2 = some v → Means d depth v) :
    Means d (depth + 1) (.mapping (keyed (present slots))) := by
  refine means_keyed ((keys_present slots).nodup hnames) fun f hf => ?_
  obtain ⟨slot, hslot, hsome⟩ := List.mem_filterMap.mp hf
  obtain ⟨v, hv, rfl⟩ := Option.map_eq_some_iff.mp hsome
  exact h slot hslot v hv

theorem means_of_present {slots : List (String × Option Value)}
    (h : Means d (depth + 1) (.mapping (keyed (present slots)))) (name : String) {v : Value}
    (hslot : (name, some v) ∈ slots) : Means d depth v :=
  (h.entry (.text name, v) (List.mem_map.mpr ⟨(name, v), List.mem_filterMap.mpr ⟨_, hslot, rfl⟩, rfl⟩)).2

theorem orElse_present {slots : List (String × Option Value)} (h : (slots.map (·.1)).Nodup) {name : String}
    {o : Option Value} (hslot : (name, o) ∈ slots) (default : α) (reader : Node → Reader α) :
    orElse (nodesOf (present slots)) name default reader = o.elim (pure default) fun v => reader v.toNode := by
  rw [orElse, lookup_present h hslot]
  cases o <;> rfl

theorem orElse_optional {slots : List (String × Option Value)} (h : (slots.map (·.1)).Nodup) {name : String}
    (toValue : α → Value) {o : Option α} (hslot : (name, o.map toValue) ∈ slots) {reader : Node → Reader α}
    (hread : ∀ x, o = some x → Reader.optional d reader (toValue x).toNode = pure (some x)) :
    orElse (nodesOf (present slots)) name none (Reader.optional d reader) = pure o := by
  rw [orElse_present h hslot]
  cases o with
  | none => rfl
  | some x => exact hread x rfl

theorem orElse_text {slots : List (String × Option Value)} (h : (slots.map (·.1)).Nodup) {name : String}
    {o : Option String} (hslot : (name, o.map .text) ∈ slots) :
    orElse (nodesOf (present slots)) name none (Reader.optional d (Reader.text d)) = pure o :=
  orElse_optional h .text hslot fun s _ => by rw [optional_text, text_text, map_pure]

theorem orElse_ite {slots : List (String × Option Value)} (h : (slots.map (·.1)).Nodup) {name : String} {b : Bool}
    {v : Value} (hslot : (name, if b then none else some v) ∈ slots) {default x : α} {reader : Node → Reader α}
    (hempty : b = true → default = x) (hread : b = false → reader v.toNode = pure x) :
    orElse (nodesOf (present slots)) name default reader = pure x := by
  rw [orElse_present h hslot]
  cases b with
  | true => exact congrArg pure (hempty rfl)
  | false => exact hread rfl

theorem required_present {slots : List (String × Option Value)} (h : (slots.map (·.1)).Nodup) {name : String}
    {v : Value} (hslot : (name, some v) ∈ slots) (reader : Node → Reader α) :
    required (nodesOf (present slots)) name reader = reader v.toNode := by
  rw [required, lookup_present h hslot]
  rfl

end Fleet.Yaml
