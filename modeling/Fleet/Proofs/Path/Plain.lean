import Fleet.Proofs.FileTree.Walk
import Fleet.Proofs.Path.Label
import Fleet.Proofs.Path.Stable
import Mathlib.Data.String.Basic

/-!
# Plain paths

A path without `.` and `..` is known by its names and by whether it is absolute (`components_eq`).  Its parent is the
path of all its names but the last (`namesOf_parent`), and is no longer than the path itself, whatever slashes that one
has (`Fits.parent`).
-/

namespace Fleet.Path

open Directory (namesOf maxName maxPath)

def IsPlain (p : Path) : Prop := ∀ name ∈ namesOf p, name ≠ "." ∧ name ≠ ".."

/-- The path can be given to the operating system: it holds no NUL, and neither it nor a name in it is too long. -/
structure Fits (p : Path) : Prop where
  nul : '\x00' ∉ p.text.toList
  length : p.text.utf8ByteSize ≤ maxPath
  names : ∀ name ∈ namesOf p, name.utf8ByteSize ≤ maxName

variable {p q : Path} {names : List String} {name : String}

/-! ### names -/

theorem mem_namesOf : name ∈ namesOf p ↔ name ≠ "" ∧ name.toList ∈ p.text.toList.splitOn '/' := by
  simp only [namesOf, List.mem_map, List.mem_filter, ne_eq, decide_not, Bool.not_eq_true', decide_eq_false_iff_not]
  constructor
  · rintro ⟨piece, ⟨hpiece, hne⟩, rfl⟩
    exact ⟨by simpa using hne, by simpa using hpiece⟩
  · rintro ⟨hne, hpiece⟩
    exact ⟨name.toList, ⟨hpiece, by simpa using hne⟩, String.ofList_toList⟩

theorem IsPlain.isName (h : IsPlain p) (hname : name ∈ namesOf p) : IsName name := by
  obtain ⟨hne, hpiece⟩ := mem_namesOf.mp hname
  obtain ⟨hdot, hup⟩ := h name hname
  exact ⟨hne, hdot, hup, Text.not_mem_of_mem_splitOn hpiece⟩

theorem namesOf_name (h : IsName name) : namesOf ⟨name⟩ = [name] := by
  have hfilter : [name.toList].filter (· ≠ []) = [name.toList] :=
    List.filter_cons_of_pos (by simpa using h.ne_empty)
  rw [namesOf, List.splitOn_eq_singleton h.notMem_slash, hfilter, List.map_singleton, String.ofList_toList]

theorem components_eq (h : IsPlain p) :
    p.components = (if p.isAbsolute then [.root] else []) ++ (namesOf p).map .name := by
  have habsolute : p.isAbsolute = true ↔ p.text.toList.head? = some '/' := by simp [isAbsolute]
  have hleft : leftPieces p.text.toList = (p.text.toList.splitOn '/').filter (· ≠ []) := by
    have hdot : ∀ piece ∈ p.text.toList.splitOn '/', piece ≠ ['.'] := by
      rintro piece hpiece rfl
      exact (h "." (mem_namesOf.mpr ⟨by decide, hpiece⟩)).1 rfl
    unfold leftPieces
    split
    · rename_i hsplit
      exact absurd hsplit (List.splitOn_ne_nil '/' _)
    · rename_i first rest hsplit
      rw [hsplit] at hdot ⊢
      have hrest : rest.filter (fun piece => piece ≠ [] ∧ piece ≠ ['.']) = rest.filter (· ≠ []) :=
        List.filter_congr fun piece hpiece => by simp [hdot piece (List.mem_cons_of_mem _ hpiece)]
      rw [hrest, ← List.filter_append, List.singleton_append]
  have hnames : (leftPieces p.text.toList).map Component.ofLeft = (namesOf p).map .name := by
    rw [hleft, namesOf, List.map_map]
    refine List.map_congr_left fun piece hpiece => ?_
    have hname : IsName (String.ofList piece) := h.isName (List.mem_map_of_mem hpiece)
    have hread := ofPiece?_toList hname
    rw [String.toList_ofList] at hread
    rw [Component.ofLeft, hread, Option.getD_some, Function.comp_apply]
  rw [components, componentsOf_eq, hnames]
  simp only [habsolute]

/-! ### the path of names -/

def ofNames (absolute : Bool) (names : List String) : Path :=
  ofComponents ((if absolute then [.root] else []) ++ names.map .name)

theorem text_ofNames (absolute : Bool) (h : ∀ name ∈ names, IsName name) :
    (ofNames absolute names).text = (if absolute then "/" else "") ++ String.intercalate "/" names := by
  rw [ofNames, ofComponents_append]
  cases names with
  | nil => cases absolute <;> rfl
  | cons first rest =>
    obtain ⟨hfirst, hrest⟩ := List.forall_mem_cons.mp h
    have hstart : ∀ base : String, base.toList.getLast?.all (· == '/') = true →
        ((first :: rest).foldl child ⟨base⟩).text = base ++ String.intercalate "/" (first :: rest) := fun base hbase => by
      rw [List.foldl_cons, child_of_slashed hbase hfirst, foldl_child_text (hfirst.unslashed base) hrest,
        String.intercalate_cons_append]
    cases absolute with
    | true => exact hstart "/" rfl
    | false => exact hstart "" rfl

theorem toList_ofNames (absolute : Bool) (h : ∀ name ∈ names, IsName name) :
    (ofNames absolute names).text.toList =
      (if absolute then ['/'] else []) ++ ['/'].intercalate (names.map String.toList) := by
  rw [text_ofNames absolute h, String.toList_append, String.toList_intercalate]
  cases absolute <;> rfl

theorem isAbsolute_ofNames (absolute : Bool) (h : ∀ name ∈ names, IsName name) :
    (ofNames absolute names).isAbsolute = absolute := by
  rw [isAbsolute, toList_ofNames absolute h]
  cases absolute with
  | true => rfl
  | false =>
    cases names with
    | nil => rfl
    | cons first rest =>
      have hfirst : IsName first := h first List.mem_cons_self
      obtain ⟨c, cs, htext⟩ := List.exists_cons_of_ne_nil (mt String.toList_eq_nil_iff.mp hfirst.ne_empty)
      have hslash : c ≠ '/' := by
        rintro rfl
        exact hfirst.notMem_slash (htext ▸ List.mem_cons_self)
      simpa [htext] using hslash

theorem namesOf_ofNames (absolute : Bool) (h : ∀ name ∈ names, IsName name) :
    namesOf (ofNames absolute names) = names := by
  have hpieces : ((['/'].intercalate (names.map String.toList)).splitOn '/').filter (· ≠ []) = names.map String.toList := by
    cases names with
    | nil => rfl
    | cons first rest =>
      rw [List.splitOn_intercalate '/' ?_ (by simp), List.filter_eq_self]
      · intro piece hpiece
        obtain ⟨name, hname, rfl⟩ := List.mem_map.mp hpiece
        simpa using (h name hname).ne_empty
      · intro piece hpiece
        obtain ⟨name, hname, rfl⟩ := List.mem_map.mp hpiece
        exact (h name hname).notMem_slash
  have hroot : ∀ s : List Char, (('/' :: s).splitOn '/').filter (· ≠ []) = (s.splitOn '/').filter (· ≠ []) := fun s => by
    rw [List.splitOn_cons_eq_if_modifyHead, if_pos (by simp), List.filter_cons_of_neg (by simp)]
  have hnames : namesOf (ofNames absolute names) = (names.map String.toList).map String.ofList := by
    rw [namesOf, toList_ofNames absolute h]
    cases absolute with
    | true => rw [if_pos rfl, List.singleton_append, hroot, hpieces]
    | false => rw [if_neg (by decide), List.nil_append, hpieces]
  rw [hnames, List.map_map]
  simp [Function.comp_def]

theorem intercalate_sublist {pieces all : List (List Char)} (h : pieces.Sublist all) :
    (['/'].intercalate pieces).Sublist (['/'].intercalate all) := by
  -- a piece that is left out takes the slash behind it along, or the one before it if it is the last
  induction h with
  | slnil => exact List.Sublist.refl _
  | @cons pieces all piece h ih =>
    cases all with
    | nil =>
      rw [List.sublist_nil.mp h]
      exact List.nil_sublist _
    | cons next all =>
      rw [List.intercalate_cons_cons]
      exact ih.trans (List.sublist_append_right _ _)
  | @cons_cons pieces all piece h ih =>
    cases pieces with
    | nil =>
      cases all with
      | nil => exact List.Sublist.refl _
      | cons next all =>
        rw [List.intercalate_singleton, List.intercalate_cons_cons, List.append_assoc]
        exact List.sublist_append_left _ _
    | cons first pieces =>
      have hall : all ≠ [] := by
        rintro rfl
        cases h
      rw [List.intercalate_cons_of_ne_nil hall, List.intercalate_cons_of_ne_nil (List.cons_ne_nil _ _)]
      exact List.Sublist.append (List.Sublist.refl _) ih

theorem ofNames_sublist (hplain : IsPlain p) (h : names.Sublist (namesOf p)) :
    (ofNames p.isAbsolute names).text.toList.Sublist p.text.toList := by
  have hnames : ∀ name ∈ names, IsName name := fun name hname => hplain.isName (h.subset hname)
  have hpieces : ∀ s : List Char, namesOf p = ((s.splitOn '/').filter (· ≠ [])).map String.ofList →
      (['/'].intercalate (names.map String.toList)).Sublist s := by
    intro s hs
    have hsub : (names.map String.toList).Sublist (s.splitOn '/') := by
      have hmap := h.map String.toList
      rw [hs, List.map_map, Function.comp_def] at hmap
      simp only [String.toList_ofList, List.map_id'] at hmap
      exact hmap.trans List.filter_sublist
    simpa using intercalate_sublist hsub
  rw [toList_ofNames _ hnames]
  cases habsolute : p.isAbsolute with
  | false => simpa using hpieces p.text.toList rfl
  | true =>
    obtain ⟨s, htext⟩ : ∃ s, p.text.toList = '/' :: s := List.head?_eq_some_iff.mp (by simpa [isAbsolute] using habsolute)
    rw [htext, if_pos rfl, List.singleton_append]
    refine List.Sublist.cons_cons _ (hpieces s ?_)
    rw [namesOf, htext, List.splitOn_cons_eq_if_modifyHead, if_pos (by simp), List.filter_cons_of_neg (by simp)]

/-! ### parents -/

theorem parent?_eq (h : IsPlain p) :
    p.parent? = if namesOf p = [] then none else some (ofNames p.isAbsolute (namesOf p).dropLast) := by
  rw [parent?, components_eq h]
  rcases List.eq_nil_or_concat' (namesOf p) with hnil | ⟨front, last, hnames⟩
  · rw [hnil, if_pos rfl]
    cases p.isAbsolute <;> rfl
  · have hne : front ++ [last] ≠ [] := List.append_ne_nil_of_right_ne_nil _ (List.cons_ne_nil _ _)
    rw [hnames, List.dropLast_concat, if_neg hne, List.map_append, ← List.append_assoc, List.map_singleton,
      List.getLast?_concat, List.dropLast_concat, ofNames]

theorem parent?_eq_none (h : IsPlain p) : p.parent? = none ↔ namesOf p = [] := by
  rw [parent?_eq h]
  split <;> simp_all

theorem namesOf_parent (h : IsPlain p) (hq : p.parent? = some q) :
    namesOf q = (namesOf p).dropLast ∧ q.isAbsolute = p.isAbsolute := by
  rw [parent?_eq h] at hq
  split at hq
  · cases hq
  · obtain rfl := Option.some_inj.mp hq
    have hnames : ∀ name ∈ (namesOf p).dropLast, IsName name := fun name hname => h.isName (List.mem_of_mem_dropLast hname)
    exact ⟨namesOf_ofNames _ hnames, isAbsolute_ofNames _ hnames⟩

theorem IsPlain.parent (h : IsPlain p) (hq : p.parent? = some q) : IsPlain q := by
  intro name hname
  rw [(namesOf_parent h hq).1] at hname
  exact h name (List.mem_of_mem_dropLast hname)

theorem Fits.parent (hfits : Fits p) (h : IsPlain p) (hq : p.parent? = some q) : Fits q := by
  have htext : q.text.toList.Sublist p.text.toList := by
    have hparent := hq
    rw [parent?_eq h] at hparent
    split at hparent
    · cases hparent
    · obtain rfl := Option.some_inj.mp hparent
      exact ofNames_sublist h (List.dropLast_sublist _)
  refine ⟨fun hnul => hfits.nul (htext.subset hnul), ?_, fun name hname => ?_⟩
  · have hlength := String.utf8Len_le_of_sublist htext
    rw [← String.utf8ByteSize_ofList, ← String.utf8ByteSize_ofList, String.ofList_toList, String.ofList_toList] at hlength
    exact hlength.trans hfits.length
  · rw [(namesOf_parent h hq).1] at hname
    exact hfits.names name (List.mem_of_mem_dropLast hname)

end Fleet.Path
