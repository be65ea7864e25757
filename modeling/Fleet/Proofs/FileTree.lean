import Fleet.FileTree
import Fleet.Table
import Mathlib.Data.List.Basic
import Mathlib.Data.List.Infix

/-!
# What is at a location

A tree is known by what is at its locations, of a directory only that it is one (`item?`).  A node that is put where
its parent is a directory is then at its location, with what is below it, and all other entries stay (`item?_put`).
Directories alone are added when folders are made (`Gains`): whatever was there before stays as it was.
-/

namespace Fleet

namespace FileNode

/-- A node without what is in it. -/
def bare : FileNode → FileNode
  | .directory _ => .directory []
  | node => node

@[simp] theorem isDirectory_bare (node : FileNode) : node.bare.isDirectory = node.isDirectory := by
  cases node <;> rfl

theorem eq_directory {node : FileNode} (h : node.isDirectory = true) : ∃ entries, node = .directory entries := by
  cases node with
  | directory entries => exact ⟨entries, rfl⟩
  | file => cases h
  | device => cases h

theorem lookup_putEntry (key name : String) (node : FileNode) (entries : List (String × FileNode)) :
    (putEntry name node entries).lookup key = if key = name then some node else entries.lookup key := by
  induction entries with
  | nil => rw [putEntry, Table.lookup_cons_if]
  | cons entry rest ih =>
    obtain ⟨other, child⟩ := entry
    by_cases hother : other = name
    · subst hother
      rw [putEntry, if_pos rfl, Table.lookup_cons_if, Table.lookup_cons_if]
      split <;> rfl
    · rw [putEntry, if_neg hother, Table.lookup_cons_if, Table.lookup_cons_if, ih]
      by_cases hkey : key = other
      · simp [hkey, hother]
      · simp [hkey]

@[simp] theorem at?_nil (node : FileNode) : node.at? [] = some node := by
  cases node <;> rfl

theorem at?_directory (entries : List (String × FileNode)) (name : String) (rest : Location) :
    (FileNode.directory entries).at? (name :: rest) = (entries.lookup name).bind (·.at? rest) := rfl

theorem at?_append (node : FileNode) (l l' : Location) : node.at? (l ++ l') = (node.at? l).bind (·.at? l') := by
  induction l generalizing node with
  | nil => simp
  | cons name rest ih =>
    cases node with
    | directory entries =>
      rw [List.cons_append, at?_directory, at?_directory, Option.bind_assoc]
      exact Option.bind_congr fun child _ => ih child
    | file => rfl
    | device => rfl

theorem at?_put? {node new result : FileNode} {l : Location} (h : node.put? l new = some result) (l' : Location) :
    (result.at? l').map bare =
      if l <+: l' then (new.at? (l'.drop l.length)).map bare else (node.at? l').map bare := by
  induction l generalizing node result l' with
  | nil =>
    have hnew : result = new := by simpa [put?] using h.symm
    simp [hnew]
  | cons name rest ih =>
    cases node with
    | file => cases h
    | device => cases h
    | directory entries =>
      -- the child below which the node is put, or the node itself, takes the place of the entry
      obtain ⟨child, hresult, hchild⟩ : ∃ child, result = .directory (putEntry name child entries) ∧
          ∀ l', (child.at? l').map bare =
            if rest <+: l' then (new.at? (l'.drop rest.length)).map bare
            else ((entries.lookup name).bind (·.at? l')).map bare := by
        cases hold : entries.lookup name with
        | some old =>
          simp only [put?, hold, Option.map_eq_some_iff] at h
          obtain ⟨child, hput, rfl⟩ := h
          exact ⟨child, rfl, ih hput⟩
        | none =>
          cases rest with
          | cons next rest => simp [put?, hold] at h
          | nil =>
            simp only [put?, hold, Option.some_inj] at h
            exact ⟨new, h.symm, by simp⟩
      subst hresult
      cases l' with
      | nil => simp [bare]
      | cons key rest' =>
        rw [at?_directory, lookup_putEntry, at?_directory]
        by_cases hkey : key = name
        · subst hkey
          simp [hchild]
        · simp [hkey, Ne.symm hkey]

theorem exists_put? {node new : FileNode} {l : Location} {name : String}
    (h : (node.at? l).any (·.isDirectory) = true) :
    ∃ entries, node.put? (l ++ [name]) new = some (.directory entries) := by
  induction l generalizing node with
  | nil =>
    obtain ⟨entries, rfl⟩ := @eq_directory node (by simpa using h)
    cases hold : entries.lookup name with
    | none => exact ⟨putEntry name new entries, by simp [put?, hold]⟩
    | some old => exact ⟨putEntry name new entries, by cases old <;> simp [put?, hold]⟩
  | cons key rest ih =>
    cases node with
    | file => cases h
    | device => cases h
    | directory entries =>
      rw [at?_directory] at h
      cases hold : entries.lookup key with
      | none => simp [hold] at h
      | some old =>
        rw [hold, Option.bind_some] at h
        obtain ⟨inner, hinner⟩ := ih h
        exact ⟨putEntry key (.directory inner) entries, by simp [put?, hold, hinner]⟩

end FileNode

namespace FileTree

variable {t t' : FileTree} {l : Location}

/-- What is at a location, of a directory only that it is one. -/
def item? (t : FileTree) (l : Location) : Option FileNode := (t.at? l).map FileNode.bare

theorem isDirectory_eq (t : FileTree) (l : Location) : t.isDirectory l = (t.item? l).any (·.isDirectory) := by
  rw [isDirectory, item?, Option.any_map]
  simp

theorem isDirectory_iff : t.isDirectory l = true ↔ t.item? l = some (.directory []) := by
  rw [isDirectory_eq, item?]
  cases hnode : t.at? l with
  | none => simp
  | some node => cases node <;> simp [FileNode.bare, FileNode.isDirectory]

theorem item?_eq_none : t.item? l = none ↔ t.at? l = none := by
  rw [item?, Option.map_eq_none_iff]

theorem at?_eq_of_item? {node : FileNode} (hnode : node.isDirectory = false) :
    t.item? l = some node ↔ t.at? l = some node := by
  rw [item?]
  cases hold : t.at? l with
  | none => simp
  | some old => cases old <;> cases node <;> simp_all [FileNode.bare, FileNode.isDirectory]

theorem at?_append (t : FileTree) (l l' : Location) : t.at? (l ++ l') = (t.at? l).bind (·.at? l') :=
  t.top.at?_append l l'

theorem isDirectory_of_append {name : String} {rest : Location} (h : t.at? (l ++ name :: rest) ≠ none) :
    t.isDirectory l = true := by
  rw [at?_append] at h
  rw [isDirectory]
  cases hnode : t.at? l with
  | none => simp [hnode] at h
  | some node =>
    cases node with
    | directory entries => rfl
    | file => simp [hnode, FileNode.at?] at h
    | device => simp [hnode, FileNode.at?] at h

/-- **What is where when a node has been put into a directory.** -/
theorem item?_put (h : t.isDirectory l = true) (name : String) (node : FileNode) (l' : Location) :
    (t.put (l ++ [name]) node).item? l' =
      if l ++ [name] <+: l' then (node.at? (l'.drop (l ++ [name]).length)).map FileNode.bare else t.item? l' := by
  obtain ⟨entries, hput⟩ : ∃ entries, t.top.put? (l ++ [name]) node = some (.directory entries) :=
    FileNode.exists_put? h
  have htree : t.put (l ++ [name]) node = ⟨entries⟩ := by
    unfold put
    rw [hput]
    cases l <;> rfl
  rw [htree]
  exact FileNode.at?_put? hput l'

theorem item?_put_self (h : t.isDirectory l = true) (name : String) (node : FileNode) :
    (t.put (l ++ [name]) node).item? (l ++ [name]) = some node.bare := by
  rw [item?_put h, if_pos (List.prefix_refl _), List.drop_length, FileNode.at?_nil, Option.map_some]

theorem item?_eq_none_of_isPrefix (h : t.item? l = none) {l' : Location} (hl : l <+: l') : t.item? l' = none := by
  obtain ⟨rest, rfl⟩ := hl
  rw [item?_eq_none] at h ⊢
  rw [at?_append, h, Option.bind_none]

/-! ### trees that gain directories -/

/-- Nothing but directories has been added to a tree. -/
def Gains (t t' : FileTree) : Prop :=
  ∀ l, t'.item? l = t.item? l ∨ t.item? l = none ∧ t'.item? l = some (.directory [])

namespace Gains

theorem refl (t : FileTree) : Gains t t := fun _ => .inl rfl

theorem trans {u : FileTree} (h : Gains t t') (h' : Gains t' u) : Gains t u := by
  intro l
  rcases h l with heq | ⟨hnone, hsome⟩
  · rw [← heq]
    exact h' l
  · rcases h' l with heq' | ⟨hnone', -⟩
    · exact .inr ⟨hnone, heq'.trans hsome⟩
    · rw [hsome] at hnone'
      cases hnone'

theorem item? (h : Gains t t') {node : FileNode} (hl : t.item? l = some node) : t'.item? l = some node := by
  rcases h l with heq | ⟨hnone, -⟩
  · rw [heq, hl]
  · rw [hl] at hnone
    cases hnone

theorem isDirectory (h : Gains t t') (hl : t.isDirectory l = true) : t'.isDirectory l = true := by
  rw [isDirectory_iff] at hl ⊢
  exact h.item? hl

theorem item?_of_not_isDirectory (h : Gains t t') {node : FileNode} (hnode : node.isDirectory = false)
    (hl : t'.item? l = some node) : t.item? l = some node := by
  rcases h l with heq | ⟨-, hsome⟩
  · rw [← heq, hl]
  · rw [hsome, Option.some_inj] at hl
    rw [← hl] at hnode
    cases hnode

theorem put (hl : t.isDirectory l = true) {name : String} (hname : t.item? (l ++ [name]) = none) :
    Gains t (t.put (l ++ [name]) (.directory [])) := by
  intro l'
  rw [item?_put hl]
  by_cases hprefix : l ++ [name] <+: l'
  · have hnone := item?_eq_none_of_isPrefix hname hprefix
    obtain ⟨rest, rfl⟩ := hprefix
    rw [if_pos (List.prefix_append _ _), List.drop_left, hnone]
    cases rest with
    | nil => exact .inr ⟨rfl, rfl⟩
    | cons key rest => exact .inl rfl
  · rw [if_neg hprefix]
    exact .inl rfl

end Gains

end FileTree

end Fleet
