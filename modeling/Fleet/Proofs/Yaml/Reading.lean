import Fleet.Proofs.Yaml.Plain
import Fleet.Yaml.Decode
import Fleet.Yaml.Document
import Fleet.Yaml.Layout
import Fleet.Yaml.Style
import Mathlib.Tactic.Common

/-!
# Reading what is written

The nodes that values are written as hold no aliases, so that reading them leaves the count of aliases as it is
(`steady_value`).  From there on a reading is a computation: texts, booleans and natural numbers come back, and a
mapping does exactly if its keys are distinct and all that is in it comes back (`means_mapping`, `Means.entry`).
-/

namespace Fleet.Yaml

open Reader

variable {α β : Type} {d : Document} {depth : Nat}

namespace Reader

/-! ### readers that follow no alias -/

/-- What a reader gives when no alias may be followed. -/
def outcome (r : Reader α) : Option α := (r 0).map (·.1)

/-- A reader follows no alias: it gives the same however many may be followed, and leaves their count as it is. -/
def Steady (r : Reader α) : Prop := r = ofOption (outcome r)

theorem outcome_ofOption (x : Option α) : outcome (ofOption x) = x := by cases x <;> rfl

theorem steady_ofOption (x : Option α) : Steady (ofOption x) := by rw [Steady, outcome_ofOption]

theorem ofOption_map (x : Option α) (f : α → β) : (ofOption x >>= fun a => pure (f a)) = ofOption (x.map f) := by
  cases x <;> rfl

theorem mapM_ofOption {f : α → Reader β} {g : α → Option β} {l : List α} (h : ∀ a ∈ l, f a = ofOption (g a)) :
    l.mapM f = ofOption (l.mapM g) := by
  induction l with
  | nil => rfl
  | cons a l ih =>
    obtain ⟨ha, hl⟩ := List.forall_mem_cons.mp h
    rw [List.mapM_cons, List.mapM_cons, ha, ih hl]
    cases g a with
    | none => rfl
    | some b => cases l.mapM g <;> rfl

theorem mapM_eq_pure {m : Type → Type} [Monad m] [LawfulMonad m] {f : α → m β} {g : α → β} {l : List α}
    (h : ∀ a ∈ l, f a = pure (g a)) : l.mapM f = pure (l.map g) := by
  induction l with
  | nil => exact List.mapM_nil
  | cons a l ih =>
    obtain ⟨ha, hl⟩ := List.forall_mem_cons.mp h
    rw [List.mapM_cons, ha, pure_bind, ih hl, pure_bind, List.map_cons]

end Reader

/-! ### the nodes of values -/

theorem itemNodes_eq (vs : List Value) : Value.itemNodes vs = vs.map Value.toNode := by
  induction vs with
  | nil => rfl
  | cons v vs ih => rw [Value.itemNodes, ih]; rfl

theorem entryNodes_eq (es : List (Value × Value)) :
    Value.entryNodes es = es.map fun e => (e.1.toNode, e.2.toNode) := by
  induction es with
  | nil => rfl
  | cons e es ih =>
    obtain ⟨k, v⟩ := e
    rw [Value.entryNodes, Value.entryNode, ih]
    rfl

theorem toNode_text (s : String) : (Value.text s).toNode = .scalar none (.ofText s) s := by
  rw [Value.toNode, Value.toNodeWith]

theorem toNode_number (n : Number) : (Value.number n).toNode = .scalar none .plain n.text := by
  rw [Value.toNode, Value.toNodeWith]

theorem toNode_mapping (es : List (Value × Value)) :
    (Value.mapping es).toNode = .mapping none (es.map fun e => (e.1.toNode, e.2.toNode)) := by
  rw [Value.toNode, Value.toNodeWith, entryNodes_eq]

/-- A node is the scalar, the sequence or the mapping of what a value is written as. -/
inductive Shaped : Node → Prop where
  | scalar (tag : Option String) (style : ScalarStyle) (s : String) : Shaped (.scalar tag style s)
  | sequence (tag : Option String) (vs : List Value) : Shaped (.sequence tag (vs.map Value.toNode))
  | mapping (tag : Option String) (es : List (Value × Value)) :
    Shaped (.mapping tag (es.map fun e => (e.1.toNode, e.2.toNode)))

theorem shaped_toNodeWith (tag : Option String) (v : Value) : Shaped (v.toNodeWith tag) := by
  match v with
  | .null | .bool _ | .number _ | .text _ => rw [Value.toNodeWith]; exact .scalar ..
  | .sequence vs => rw [Value.toNodeWith, itemNodes_eq]; exact .sequence ..
  | .mapping es => rw [Value.toNodeWith, entryNodes_eq]; exact .mapping ..
  | .tagged name content => rw [Value.toNodeWith]; exact shaped_toNodeWith _ content

/-- What a content means with the tag that is around it. -/
def tagWith (tag : Option String) (content : Value) : Value :=
  match userTag? tag with
  | none => content
  | some name => .tagged name content

theorem tagged_eq (tag : Option String) (content : Option Value) :
    (ofOption content >>= fun c => match userTag? tag with
      | none => pure c
      | some name => pure (Value.tagged name c)) = ofOption (content.map (tagWith tag)) := by
  unfold tagWith
  cases userTag? tag <;> exact ofOption_map ..

theorem valueWith_scalar (inner : Option (Node → Reader Value)) (tag : Option String) (style : ScalarStyle)
    (s : String) :
    valueWith d inner (.scalar tag style s) = ofOption ((scalarValue tag style s).map (tagWith tag)) := by
  rw [← tagged_eq]
  rfl

theorem valueWith_sequence {inner : Node → Reader Value} {items : List Node} (tag : Option String)
    (h : ∀ n ∈ items, Steady (inner n)) :
    valueWith d (some inner) (.sequence tag items) =
      ofOption (((items.mapM fun n => outcome (inner n)).map Value.sequence).map (tagWith tag)) := by
  have hitems : (Value.sequence <$> items.mapM inner : Reader Value) =
      ofOption ((items.mapM fun n => outcome (inner n)).map Value.sequence) := by
    rw [mapM_ofOption h]
    cases items.mapM fun n => outcome (inner n) <;> rfl
  rw [← tagged_eq, ← hitems]
  rfl

/-- The mapping of entries, if no key comes twice. -/
def mappingOf? (es : List (Value × Value)) : Option Value :=
  if Value.Distinct es then some (.mapping es) else none

def entryOutcome (inner : Node → Reader Value) (e : Node × Node) : Option (Value × Value) := do
  pure (← outcome (inner e.1), ← outcome (inner e.2))

theorem mapM_entries {inner : Node → Reader Value} {es : List (Node × Node)}
    (h : ∀ e ∈ es, Steady (inner e.1) ∧ Steady (inner e.2)) :
    (es.mapM fun (k, v) => do
      let key ← inner k
      let value ← inner v
      pure (key, value)) = ofOption (es.mapM (entryOutcome inner)) := by
  refine mapM_ofOption fun e he => ?_
  obtain ⟨hkey, hvalue⟩ := h e he
  change (inner e.1 >>= fun key => inner e.2 >>= fun value => pure (key, value)) = _
  rw [hkey, hvalue, entryOutcome]
  cases outcome (inner e.1) with
  | none => rfl
  | some key => cases outcome (inner e.2) <;> rfl

theorem valueWith_mapping {inner : Node → Reader Value} {es : List (Node × Node)} (tag : Option String)
    (h : ∀ e ∈ es, Steady (inner e.1) ∧ Steady (inner e.2)) :
    valueWith d (some inner) (.mapping tag es) =
      ofOption (((es.mapM (entryOutcome inner)).bind mappingOf?).map (tagWith tag)) := by
  rw [← tagged_eq, valueWith]
  simp only [follow, pure_bind, mapM_entries h]
  cases es.mapM (entryOutcome inner) with
  | none => rfl
  | some es =>
    change (if Value.Distinct es then _ else _) = _
    rw [Option.bind_some, mappingOf?]
    split <;> rfl

theorem steady_value (d : Document) (depth : Nat) {n : Node} (hn : Shaped n) : Steady (value d depth n) := by
  induction depth generalizing n with
  | zero =>
    cases hn with
    | scalar tag style s =>
      rw [value, valueWith_scalar]
      exact steady_ofOption _
    | sequence tag vs => exact steady_ofOption none
    | mapping tag es => exact steady_ofOption none
  | succ depth ih =>
    have hnode : ∀ v : Value, Steady (value d depth v.toNode) := fun v => ih (shaped_toNodeWith none v)
    rw [value]
    cases hn with
    | scalar tag style s =>
      rw [valueWith_scalar]
      exact steady_ofOption _
    | sequence tag vs =>
      rw [valueWith_sequence tag (by simpa using fun v _ => hnode v)]
      exact steady_ofOption _
    | mapping tag es =>
      rw [valueWith_mapping tag fun e he => ?_]
      · exact steady_ofOption _
      · obtain ⟨x, -, rfl⟩ := List.mem_map.mp he
        exact ⟨hnode x.1, hnode x.2⟩

/-! ### values that come back -/

/-- A value comes back from what it is written as, within a depth. -/
def Means (d : Document) (depth : Nat) (v : Value) : Prop := value d depth v.toNode = pure v

theorem means_iff {v : Value} : Means d depth v ↔ outcome (value d depth v.toNode) = some v := by
  have hsteady : Steady (value d depth v.toNode) := steady_value d depth (shaped_toNodeWith none v)
  constructor
  · intro h
    rw [h]
    rfl
  · intro h
    rw [Means, hsteady, h]
    rfl

theorem means_of_run {v : Value} (hroot : d.root = v.toNode) (h : Reader.run d (value d depth) = some v) :
    Means d depth v := by
  have hsteady : Steady (value d depth v.toNode) := steady_value d depth (shaped_toNodeWith none v)
  rw [Reader.run, hroot, hsteady] at h
  rw [means_iff]
  cases hout : outcome (value d depth v.toNode) with
  | none => simp [hout, ofOption] at h
  | some w => simpa [hout, ofOption] using h

theorem forall_of_mapM_map {f : α → β} {g : β → Option α} {l : List α} (h : (l.map f).mapM g = some l) :
    ∀ a ∈ l, g (f a) = some a := by
  induction l with
  | nil => simp
  | cons a l ih =>
    rw [List.map_cons, List.mapM_cons] at h
    obtain ⟨b, hb, h⟩ := Option.bind_eq_some_iff.mp h
    obtain ⟨bs, hbs, h⟩ := Option.bind_eq_some_iff.mp h
    obtain ⟨rfl, rfl⟩ := List.cons.inj (Option.some.inj h)
    exact List.forall_mem_cons.mpr ⟨hb, ih hbs⟩

theorem Means.entry {es : List (Value × Value)} (h : Means d (depth + 1) (.mapping es)) :
    ∀ e ∈ es, Means d depth e.1 ∧ Means d depth e.2 := by
  have hnode : ∀ v : Value, Steady (value d depth v.toNode) := fun v => steady_value d depth (shaped_toNodeWith none v)
  rw [means_iff, toNode_mapping, value, valueWith_mapping, outcome_ofOption] at h
  · obtain ⟨content, hcontent, htag⟩ := Option.map_eq_some_iff.mp h
    obtain ⟨es', hes', hmapping⟩ := Option.bind_eq_some_iff.mp hcontent
    rw [mappingOf?] at hmapping
    split at hmapping
    · obtain rfl := Option.some.inj hmapping
      obtain rfl : es' = es := Value.mapping.inj htag
      intro e he
      have hentry := forall_of_mapM_map hes' e he
      obtain ⟨key, hkey, hentry⟩ := Option.bind_eq_some_iff.mp hentry
      obtain ⟨value, hvalue, hentry⟩ := Option.bind_eq_some_iff.mp hentry
      obtain rfl := Option.some.inj hentry
      exact ⟨means_iff.mpr hkey, means_iff.mpr hvalue⟩
    · cases hmapping
  · intro e he
    obtain ⟨x, -, rfl⟩ := List.mem_map.mp he
    exact ⟨hnode x.1, hnode x.2⟩

theorem means_mapping {es : List (Value × Value)} (hdistinct : Value.Distinct es)
    (h : ∀ e ∈ es, Means d depth e.1 ∧ Means d depth e.2) : Means d (depth + 1) (.mapping es) := by
  have hentries : (es.map fun e => (e.1.toNode, e.2.toNode)).mapM (entryOutcome (value d depth)) = some es := by
    rw [List.mapM_map, mapM_eq_pure (g := id), List.map_id]
    · rfl
    intro e he
    obtain ⟨hkey, hvalue⟩ := h e he
    simp only [Function.comp_apply, entryOutcome, means_iff.mp hkey, means_iff.mp hvalue]
    rfl
  rw [Means, toNode_mapping, value, valueWith_mapping, hentries, Option.bind_some, mappingOf?, if_pos hdistinct]
  · rfl
  · intro e he
    obtain ⟨x, -, rfl⟩ := List.mem_map.mp he
    exact ⟨steady_value d depth (shaped_toNodeWith none x.1), steady_value d depth (shaped_toNodeWith none x.2)⟩

/-! ### texts and numbers -/

theorem text_text (s : String) : Reader.text d (Value.text s).toNode = pure s := by
  rw [toNode_text]
  rfl

theorem readsAsText_of_plain {s : String} (h : ScalarStyle.ofText s = .plain) : readsAsText s = true := by
  by_contra hreads
  rw [Bool.not_eq_true] at hreads
  simp only [ScalarStyle.ofText, hreads, Bool.false_and, Bool.false_eq_true, if_false] at h
  split at h <;> split at h <;> cases h

theorem not_null_of_reads {s : String} (h : readsAsText s = true) : (s = "" || isNull s) = false := by
  refine Bool.eq_false_iff.mpr fun hnull => ?_
  rw [readsAsText, plainValue?, if_pos hnull] at h
  cases h

theorem plainValue?_of_reads {s : String} (h : readsAsText s = true) : plainValue? s = some (.text s) := by
  unfold readsAsText at h
  split at h
  · rename_i hvalue
    rw [hvalue, eq_of_plainValue?_text hvalue]
  · cases h

theorem scalarValue_text (s : String) : scalarValue none (.ofText s) s = some (.text s) := by
  rw [scalarValue]
  split
  · rename_i hplain
    exact plainValue?_of_reads (readsAsText_of_plain hplain)
  · rfl

theorem means_text (s : String) : Means d depth (.text s) := by
  cases depth <;> rw [Means, toNode_text, value, valueWith_scalar, scalarValue_text] <;> rfl

theorem means_bool (b : Bool) : Means d depth (.bool b) := by
  cases depth <;> cases b <;> rfl

theorem means_natural {n : Nat} (h : n < UInt64.size) : Means d depth (.number (.integer n)) := by
  have hscalar : scalarValue none .plain (Number.integer n).text = some (.number (.integer n)) := plainValue?_natural h
  cases depth <;> rw [Means, toNode_number, value, valueWith_scalar, hscalar] <;> rfl

theorem optional_of_present {n : Node} (hfollow : follow d n = pure n) (h : isAbsent n = pure false)
    (reader : Node → Reader α) : Reader.optional d reader n = some <$> reader n := by
  rw [Reader.optional, hfollow, pure_bind, h, pure_bind]
  rfl

theorem optional_text (s : String) (reader : Node → Reader α) :
    Reader.optional d reader (Value.text s).toNode = some <$> reader (Value.text s).toNode := by
  rw [toNode_text]
  refine optional_of_present rfl ?_ reader
  unfold isAbsent
  split
  · rename_i hnode
    injection hnode with _ hstyle hs
    subst hs
    rw [not_null_of_reads (readsAsText_of_plain hstyle)]
  · rename_i hnode
    cases hnode
  · rfl

theorem optional_mapping (es : List (Value × Value)) (reader : Node → Reader α) :
    Reader.optional d reader (Value.mapping es).toNode = some <$> reader (Value.mapping es).toNode := by
  rw [toNode_mapping]
  exact optional_of_present rfl rfl reader

/-! ### natural numbers -/

theorem naturalBelow_natural {limit n : Nat} (h : n < limit) :
    naturalBelow limit d (Value.number (.integer n)).toNode = pure n := by
  have hbelow : naturalBelow? limit (Number.integer n).text = some n := by
    rw [naturalBelow?, natural?_text]
    exact Option.filter_some_pos (decide_eq_true h)
  rw [toNode_number]
  change ofOption (naturalBelow? limit (Number.integer n).text) = pure n
  rw [hbelow]
  rfl

theorem optional_natural (n : Nat) (reader : Node → Reader α) :
    Reader.optional d reader (Value.number (.integer n)).toNode =
      some <$> reader (Value.number (.integer n)).toNode := by
  rw [toNode_number]
  refine optional_of_present rfl ?_ reader
  rw [← (only_natural (natural?_text n)).1]
  rfl

/-! ### texts of values -/

/-- A value comes back from its text: the text has the nodes that the value is written as, and they mean the value. -/
def ReadsBack (v : Value) : Prop :=
  ∃ d, Document.parse? v.toNode.write = some d ∧ d.root = v.toNode ∧ Reader.run d (Reader.value d maxDepth) = some v

mutual

/-- Whether two nodes without aliases are the same. -/
def Node.same : Node → Node → Bool
  | .scalar tag style s, .scalar tag' style' s' => tag = tag' && style = style' && s = s'
  | .sequence tag items, .sequence tag' items' => tag = tag' && sameItems items items'
  | .mapping tag entries, .mapping tag' entries' => tag = tag' && sameEntries entries entries'
  | _, _ => false

def Node.sameItems : List Node → List Node → Bool
  | [], [] => true
  | m :: ms, n :: ns => m.same n && sameItems ms ns
  | _, _ => false

def Node.sameEntries : List (Node × Node) → List (Node × Node) → Bool
  | [], [] => true
  | (k, v) :: es, (k', v') :: fs => k.same k' && v.same v' && sameEntries es fs
  | _, _ => false

end

theorem Node.eq_of_same {m n : Node} : m.same n → m = n := by
  refine Node.same.induct (fun m n => m.same n → m = n) (fun es fs => Node.sameEntries es fs → es = fs)
    (fun ms ns => Node.sameItems ms ns → ms = ns) ?_ ?_ ?_ ?_ ?_ ?_ ?_ ?_ ?_ ?_ m n
  all_goals
    intros
    simp_all only [Node.same, Node.sameItems, Node.sameEntries, Bool.and_eq_true, decide_eq_true_eq, Bool.false_eq_true]

/-- That a value comes back from its text is seen from the nodes of the text, if nodes as they are written mean it. -/
theorem readsBack_of_same {v : Value} (hnodes : (Document.parse? v.toNode.write).any (·.root.same v.toNode))
    (hmeans : ∀ d, Means d maxDepth v) : ReadsBack v := by
  cases hparse : Document.parse? v.toNode.write with
  | none => rw [hparse] at hnodes; cases hnodes
  | some d =>
    rw [hparse, Option.any_some] at hnodes
    have hroot : d.root = v.toNode := Node.eq_of_same hnodes
    refine ⟨d, hparse, hroot, ?_⟩
    rw [Reader.run, hroot, hmeans d]
    rfl

end Fleet.Yaml
