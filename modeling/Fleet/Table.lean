/-!
# Tables

A table gives values to texts and lists them in ascending order of the texts, each text once.  Adding an
entry for a text that has one replaces it.  Two tables with the same entries are equal.
-/

namespace Fleet

/-- Values by text, in ascending order of the texts. -/
structure Table (α : Type) where
  entries : List (String × α)
  sorted : entries.Pairwise (·.1 < ·.1)

namespace Table

variable {α : Type}

@[ext] theorem ext {s t : Table α} (h : s.entries = t.entries) : s = t := by
  cases s; cases t; cases h; rfl

instance [DecidableEq α] : DecidableEq (Table α) := fun s t =>
  decidable_of_iff (s.entries = t.entries) ⟨ext, fun h => h ▸ rfl⟩

def empty : Table α := ⟨[], .nil⟩

instance : Inhabited (Table α) := ⟨empty⟩

def get? (t : Table α) (key : String) : Option α :=
  t.entries.lookup key

/-! ### adding an entry -/

/-- The entry put at its place in an ascending list, instead of one with the same text. -/
def put (key : String) (value : α) : List (String × α) → List (String × α)
  | [] => [(key, value)]
  | (k, v) :: rest =>
    if key < k then (key, value) :: (k, v) :: rest
    else if key = k then (key, value) :: rest
    else (k, v) :: put key value rest

theorem mem_put {key : String} {value : α} {e : String × α} {l : List (String × α)}
    (h : e ∈ put key value l) : e = (key, value) ∨ e ∈ l := by
  induction l with
  | nil => simpa [put] using h
  | cons x rest ih =>
    obtain ⟨k, v⟩ := x
    rw [put] at h
    split at h
    · simpa using h
    · split at h
      · rcases List.mem_cons.1 h with h | h
        · exact .inl h
        · exact .inr (List.mem_cons_of_mem _ h)
      · rcases List.mem_cons.1 h with h | h
        · exact .inr (h ▸ List.mem_cons_self ..)
        · exact (ih h).imp id (List.mem_cons_of_mem _)

theorem sorted_put (key : String) (value : α) {l : List (String × α)}
    (h : l.Pairwise (·.1 < ·.1)) : (put key value l).Pairwise (·.1 < ·.1) := by
  induction l with
  | nil => simp [put]
  | cons x rest ih =>
    obtain ⟨k, v⟩ := x
    have hrest := List.pairwise_cons.1 h
    rw [put]
    split
    · rename_i hlt
      refine List.pairwise_cons.2 ⟨fun e he => ?_, h⟩
      rcases List.mem_cons.1 he with rfl | he
      · exact hlt
      · exact String.lt_trans hlt (hrest.1 e he)
    · rename_i hnlt
      split
      · rename_i heq
        exact List.pairwise_cons.2 ⟨fun e he => heq ▸ hrest.1 e he, hrest.2⟩
      · rename_i hne
        refine List.pairwise_cons.2 ⟨fun e he => ?_, ih hrest.2⟩
        rcases mem_put he with rfl | he
        · apply Classical.byContradiction
          intro hk
          exact hne (String.le_antisymm (String.not_lt.1 hk) (String.not_lt.1 hnlt))
        · exact hrest.1 e he

/-- The table with one more entry, which replaces one of the same text. -/
def insert (t : Table α) (key : String) (value : α) : Table α :=
  ⟨put key value t.entries, sorted_put key value t.sorted⟩

/-- The table of a list of entries; of two with the same text the later one counts. -/
def ofList (l : List (String × α)) : Table α :=
  l.foldl (fun t e => t.insert e.1 e.2) empty

/-- The first table with the entries of the second added. -/
def merge (t u : Table α) : Table α :=
  u.entries.foldl (fun t e => t.insert e.1 e.2) t

/-! ### looking up -/

theorem lookup_cons_if (key k : String) (value : α) (l : List (String × α)) :
    ((key, value) :: l).lookup k = if k = key then some value else l.lookup k := by
  by_cases h : k = key
  · rw [List.lookup_cons]; simp [h]
  · have : (k == key) = false := by simpa using h
    rw [List.lookup_cons]; simp [h, this]

theorem lookup_put (key k : String) (value : α) (l : List (String × α)) :
    (put key value l).lookup k = if k = key then some value else l.lookup k := by
  induction l with
  | nil => simp [put, lookup_cons_if]
  | cons x rest ih =>
    obtain ⟨a, v⟩ := x
    rw [put]
    split
    · simp only [lookup_cons_if]
    · split
      · rename_i _ heq
        subst heq
        by_cases hk : k = key <;> simp [lookup_cons_if, hk]
      · rename_i _ hne
        by_cases ha : k = a
        · simp [ha, Ne.symm hne]
        · simp [lookup_cons_if, ha, ih]

@[simp] theorem get?_insert (t : Table α) (key k : String) (value : α) :
    (t.insert key value).get? k = if k = key then some value else t.get? k :=
  lookup_put key k value t.entries

theorem put_put (key : String) (first last : α) (l : List (String × α)) :
    put key last (put key first l) = put key last l := by
  have hself : ¬ key < key := String.lt_irrefl key
  induction l with
  | nil => simp only [put, if_neg hself, if_true]
  | cons e rest ih =>
    obtain ⟨k, v⟩ := e
    by_cases hlt : key < k
    · simp only [put, if_pos hlt, if_neg hself, if_true]
    · by_cases heq : key = k
      · subst heq
        simp only [put, if_neg hself, if_true]
      · simp only [put, if_neg hlt, if_neg heq, ih]

theorem insert_insert (t : Table α) (key : String) (first last : α) :
    (t.insert key first).insert key last = t.insert key last :=
  ext (put_put key first last t.entries)

@[simp] theorem get?_empty (k : String) : (empty : Table α).get? k = none := rfl

theorem lookup_eq_none {key : String} {l : List (String × α)} (h : ∀ e ∈ l, key < e.1) : l.lookup key = none := by
  induction l with
  | nil => rfl
  | cons e rest ih =>
    have hne : key ≠ e.1 := fun heq => String.lt_irrefl key (heq ▸ h e List.mem_cons_self)
    rw [lookup_cons_if e.1 key e.2, if_neg hne]
    exact ih fun e he => h e (List.mem_cons_of_mem _ he)

theorem get?_foldl_insert {l : List (String × α)} (h : l.Pairwise (·.1 < ·.1)) (t : Table α) (k : String) :
    (l.foldl (fun t e => t.insert e.1 e.2) t).get? k = (l.lookup k).or (t.get? k) := by
  induction l generalizing t with
  | nil => rfl
  | cons e rest ih =>
    obtain ⟨hfirst, hrest⟩ := List.pairwise_cons.1 h
    rw [List.foldl_cons, ih hrest, get?_insert, lookup_cons_if e.1 k e.2]
    by_cases hk : k = e.1
    · rw [if_pos hk, if_pos hk, lookup_eq_none fun x hx => hk ▸ hfirst x hx]
      rfl
    · rw [if_neg hk, if_neg hk]

theorem get?_merge (t u : Table α) (k : String) : (t.merge u).get? k = (u.get? k).or (t.get? k) :=
  get?_foldl_insert u.sorted t k

/-! ### a table's own entries -/

theorem put_last {key : String} (value : α) {l : List (String × α)} (h : ∀ e ∈ l, e.1 < key) :
    put key value l = l ++ [(key, value)] := by
  induction l with
  | nil => rfl
  | cons e rest ih =>
    obtain ⟨k, v⟩ := e
    obtain ⟨hk, hrest⟩ := List.forall_mem_cons.mp h
    have hne : key ≠ k := fun heq => String.lt_irrefl k (heq ▸ hk)
    rw [put, if_neg (String.lt_asymm hk), if_neg hne, ih hrest, List.cons_append]

theorem entries_foldl_insert {l : List (String × α)} (t : Table α) (h : (t.entries ++ l).Pairwise (·.1 < ·.1)) :
    (l.foldl (fun t e => t.insert e.1 e.2) t).entries = t.entries ++ l := by
  induction l generalizing t with
  | nil => simp
  | cons e rest ih =>
    have hlast : (t.insert e.1 e.2).entries = t.entries ++ [e] :=
      put_last e.2 fun x hx => (List.pairwise_append.mp h).2.2 x hx e List.mem_cons_self
    rw [List.foldl_cons, ih, hlast, List.append_assoc, List.singleton_append]
    rwa [hlast, List.append_assoc, List.singleton_append]

theorem ofList_entries (t : Table α) : ofList t.entries = t :=
  ext (entries_foldl_insert empty t.sorted)

end Table

end Fleet
