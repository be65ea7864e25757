import Fleet.Path
import Fleet.Proofs.Text

/-!
# The components of joined paths

A relative text that is joined to a path adds the components of its pieces, whatever slashes the path ends in
(`components_child`); a name adds itself (`components_child_name`), and the empty text adds nothing.  A name among the
components of any path is a name by itself (`isName_of_mem`), so a text that is not one never becomes a component.
-/

namespace Fleet.Path

/-- Whether a text is a component by itself, and a name. -/
def IsName (s : String) : Prop := s ≠ "" ∧ s ≠ "." ∧ s ≠ ".." ∧ '/' ∉ s.toList

instance (s : String) : Decidable (IsName s) :=
  inferInstanceAs <| Decidable (s ≠ "" ∧ s ≠ "." ∧ s ≠ ".." ∧ '/' ∉ s.toList)

/-- The components that pieces between slashes stand for. -/
def bodyOf (s : List Char) : List Component := (s.splitOn '/').filterMap Component.ofPiece?

theorem ofPiece?_toList {s : String} (h : IsName s) : Component.ofPiece? s.toList = some (.name s) := by
  obtain ⟨hempty, hdot, hup, -⟩ := h
  have hne : ∀ t : List Char, s ≠ String.ofList t → s.toList ≠ t := by
    rintro t hst rfl
    exact hst String.ofList_toList.symm
  unfold Component.ofPiece?
  split
  · rename_i heq
    exact absurd heq (hne _ hempty)
  · rename_i heq
    exact absurd heq (hne _ hdot)
  · rename_i heq
    exact absurd heq (hne _ hup)
  · rw [String.ofList_toList]

theorem bodyOf_name {s : String} (h : IsName s) : bodyOf s.toList = [.name s] := by
  rw [bodyOf, List.splitOn_eq_singleton h.2.2.2, List.filterMap_cons, ofPiece?_toList h, List.filterMap_nil]

theorem componentsOf_name {s : String} (h : IsName s) : componentsOf s.toList = [.name s] := by
  have hbody := bodyOf_name h
  obtain ⟨-, hdot, -, hslash⟩ := h
  have hhead : s.toList.head? ≠ some '/' := fun hhead => hslash (List.mem_of_head? hhead)
  have hcurrent : s.toList ≠ ['.'] := fun heq => hdot (by rw [← String.ofList_toList (s := s), heq])
  rw [componentsOf, if_neg hhead, List.splitOn_eq_singleton hslash, List.head?_cons, if_neg (by simpa using hcurrent),
    ← List.splitOn_eq_singleton hslash]
  exact hbody

/-! ### joining -/

theorem componentsOf_append {s : List Char} (hs : s ≠ []) (t : List Char) :
    componentsOf (s ++ '/' :: t) = componentsOf s ++ bodyOf t := by
  have hsplit : (s ++ '/' :: t).splitOn '/' = s.splitOn '/' ++ t.splitOn '/' := List.splitOn_append_cons_self s t
  have hhead : (s ++ '/' :: t).head? = s.head? := List.head?_append_of_ne_nil s hs
  have hfirst : (s.splitOn '/' ++ t.splitOn '/').head? = (s.splitOn '/').head? :=
    List.head?_append_of_ne_nil _ (List.splitOn_ne_nil '/' s)
  simp only [componentsOf, hsplit, hhead, hfirst, List.filterMap_append, bodyOf]
  split
  · rfl
  · split <;> rfl

theorem componentsOf_concat {s : List Char} (hs : s ≠ []) : componentsOf (s ++ ['/']) = componentsOf s := by
  rw [componentsOf_append hs]
  exact List.append_nil _

theorem components_child {base : Path} {rest : String} (hbase : base.text ≠ "") (hrest : rest.toList.head? ≠ some '/') :
    (base.child rest).components = base.components ++ bodyOf rest.toList := by
  have hne : base.text.toList ≠ [] := fun heq => hbase (String.toList_eq_nil_iff.mp heq)
  have habsolute : ¬(Path.mk rest).isAbsolute = true := by simpa [isAbsolute] using hrest
  rw [child, join, if_neg habsolute]
  split
  · rename_i hlast
    obtain ⟨s, c, hsc⟩ := List.eq_nil_or_concat base.text.toList |>.resolve_left hne
    rw [List.concat_eq_append] at hsc
    have hc : c = '/' := by simpa [hsc] using hlast
    rw [components, components, String.toList_append, hsc, hc]
    cases s with
    | nil => rfl
    | cons a s =>
      rw [componentsOf_concat (by simp), List.append_assoc]
      exact componentsOf_append (by simp) _
  · have htext : (base.text ++ "/" ++ rest).toList = base.text.toList ++ '/' :: rest.toList := by simp
    rw [components, htext]
    exact componentsOf_append hne _

theorem components_child_name {name : String} (h : IsName name) (base : Path) :
    (base.child name).components = base.components ++ [.name name] := by
  have hhead : name.toList.head? ≠ some '/' := fun hhead => h.2.2.2 (List.mem_of_head? hhead)
  by_cases hbase : base.text = ""
  · have hchild : base.child name = ⟨name⟩ := by
      have habsolute : ¬(Path.mk name).isAbsolute = true := by simpa [isAbsolute] using hhead
      rw [child, join, if_neg habsolute, hbase]
      simp
    rw [hchild, components, components, hbase]
    exact componentsOf_name h
  · rw [components_child hbase hhead, bodyOf_name h]

theorem components_child_empty (base : Path) : (base.child "").components = base.components := by
  by_cases hbase : base.text = ""
  · obtain rfl : base = ⟨""⟩ := by
      cases base
      exact congrArg _ hbase
    rfl
  · rw [components_child hbase (by simp)]
    exact List.append_nil _

theorem components_foldl_child {names : List String} (h : ∀ name ∈ names, name = "" ∨ IsName name) (base : Path) :
    (names.foldl child base).components = base.components ++ (names.filter (· ≠ "")).map .name := by
  induction names generalizing base with
  | nil => simp
  | cons name rest ih =>
    have hrest := ih (fun x hx => h x (List.mem_cons_of_mem _ hx)) (base.child name)
    rw [List.foldl_cons, hrest]
    rcases h name List.mem_cons_self with rfl | hname
    · rw [components_child_empty]
      simp
    · rw [components_child_name hname, List.filter_cons_of_pos (by simpa using hname.1)]
      simp

/-! ### names of files -/

theorem isName_append {label suffix : String} (h : '/' ∉ label.toList) (hsuffix : '/' ∉ suffix.toList)
    (hlength : 2 < suffix.length) : IsName (label ++ suffix) := by
  have hne : ∀ t : String, t.length ≤ 2 → label ++ suffix ≠ t := by
    rintro t ht rfl
    rw [String.length_append] at ht
    omega
  refine ⟨hne "" (by decide), hne "." (by decide), hne ".." (by decide), ?_⟩
  rw [String.toList_append, List.mem_append, not_or]
  exact ⟨h, hsuffix⟩

theorem isName_of_mem {s : List Char} {name : String} (h : .name name ∈ componentsOf s) : IsName name := by
  have hbody : .name name ∈ bodyOf s := by
    simp only [componentsOf] at h
    split at h
    · simpa [bodyOf] using h
    · split at h
      · simpa [bodyOf] using h
      · exact h
  obtain ⟨piece, hpiece, hname⟩ := List.mem_filterMap.mp hbody
  have hslash : '/' ∉ piece := Text.not_mem_of_mem_splitOn hpiece
  unfold Component.ofPiece? at hname
  split at hname
  · cases hname
  · cases hname
  · cases hname
  · rename_i hempty hdot hup
    cases hname
    have hne : ∀ t : String, piece ≠ t.toList → String.ofList piece ≠ t := by
      rintro t ht rfl
      exact ht String.toList_ofList.symm
    exact ⟨hne _ hempty, hne _ hdot, hne _ hup, by rwa [String.toList_ofList]⟩

theorem not_mem_fileName {p : Path} {name : String} (h : p.fileName? = some name) : '/' ∉ name.toList := by
  unfold fileName? at h
  split at h
  · rename_i text hlast
    cases h
    exact (isName_of_mem (List.mem_of_getLast? hlast)).2.2.2
  · cases h

end Fleet.Path
