import Fleet.Proofs.FileTree.Folder
import Fleet.Proofs.Path.Plain

/-!
# Clear ways

Where nothing but directories is on the way to a plain path, what the calls of an errand come to depends on two
questions alone: whether the path's parent is there, and whether the path is (`Open.makeDirectory_cases`).  Both stay
answered with yes as long as nothing but directories is added.
-/

namespace Fleet

open Fleet.Path (IsPlain Fits)

namespace FileTree

variable {t t' : FileTree} {l l' : Location}

/-- Nothing but directories is at a location or on the way to it. -/
def Clear (t : FileTree) (l : Location) : Prop := ∀ l', l' <+: l → t.item? l' = none ∨ t.isDirectory l' = true

theorem Clear.of_isPrefix (h : t.Clear l) (hl : l' <+: l) : t.Clear l' := fun _ hl' => h _ (hl'.trans hl)

theorem Clear.gains (h : t.Clear l) (hgains : t.Gains t') : t'.Clear l := by
  intro l' hl'
  rcases hgains l' with heq | ⟨-, hsome⟩
  · rcases h l' hl' with hnone | hfolder
    · exact .inl (heq.trans hnone)
    · exact .inr (hgains.isDirectory hfolder)
  · exact .inr (isDirectory_iff.mpr hsome)

theorem Clear.isDirectory (h : t.Clear l) (hl : t.item? l ≠ none) : t.isDirectory l = true :=
  (h l (List.prefix_refl l)).resolve_left hl

theorem isDirectory_of_isPrefix (h : t.isDirectory l = true) (hl : l' <+: l) : t.isDirectory l' = true := by
  obtain ⟨rest, rfl⟩ := hl
  cases rest with
  | nil => rwa [List.append_nil] at h
  | cons name rest =>
    refine @isDirectory_of_append t l' name rest fun hnone => ?_
    rw [isDirectory, hnone] at h
    cases h

end FileTree

namespace Directory

variable {d d' : Directory} {p q : Path} {t : FileTree} {l : Location} {names : List String}

def locationOf (d : Directory) (p : Path) : Location := d.base p ++ namesOf p

/-- The folder at a path can be ensured: the path is plain and fits, and the way to it is clear. -/
structure Open (d : Directory) (p : Path) : Prop where
  plain : IsPlain p
  fits : Fits p
  place : d.tree.isDirectory (d.base p) = true
  clear : d.tree.Clear (d.locationOf p)

theorem walk_plain (hl : t.isDirectory l = true) (hplain : ∀ name ∈ names, name ≠ "." ∧ name ≠ "..")
    (hlength : ∀ name ∈ names, name.utf8ByteSize ≤ maxName) (hclear : t.Clear (l ++ names)) (hne : names ≠ []) :
    walk t l names = if t.isDirectory (l ++ names.dropLast) then .ok (l ++ names) else .error .notFound := by
  -- the first name that is not there ends the walk, unless it is the last; nothing below it is there either
  induction names generalizing l with
  | nil => exact absurd rfl hne
  | cons name rest ih =>
    obtain ⟨⟨hdot, hup⟩, hplain⟩ := List.forall_mem_cons.mp hplain
    obtain ⟨hname, hlength⟩ := List.forall_mem_cons.mp hlength
    have hstep : step t l name rest.isEmpty =
        if !rest.isEmpty ∧ (t.at? (l ++ [name])).isNone then .error .notFound else .ok (l ++ [name]) := by
      simp only [step, hl, hdot, hup, if_false, Bool.not_true, Bool.false_eq_true]
      rw [if_neg (by omega)]
    cases rest with
    | nil =>
      rw [walk, hstep]
      simp [walk, hl]
    | cons other rest =>
      rw [walk, hstep, List.append_cons l name (other :: rest), List.dropLast_cons_cons,
        List.append_cons l name (other :: rest).dropLast]
      cases hthere : t.at? (l ++ [name]) with
      | none =>
        have hbelow : t.isDirectory (l ++ [name] ++ (other :: rest).dropLast) = false := by
          rw [FileTree.isDirectory, FileTree.at?_append, hthere]
          rfl
        rw [hbelow]
        rfl
      | some node =>
        rw [List.append_cons] at hclear
        have hfolder : t.isDirectory (l ++ [name]) = true := by
          refine (hclear.of_isPrefix (List.prefix_append _ _)).isDirectory fun hnone => ?_
          rw [FileTree.item?_eq_none, hthere] at hnone
          cases hnone
        rw [← ih hfolder hplain hlength hclear (List.cons_ne_nil _ _)]
        simp

theorem Open.find_eq (h : d.Open p) (hne : namesOf p ≠ []) :
    d.find p =
      if d.tree.isDirectory (d.locationOf p).dropLast then .ok (targetAt p (d.locationOf p)) else .error .notFound := by
  have htext : textFault? p = none := by
    have hempty : p.text ≠ "" := by
      intro hempty
      rw [namesOf, hempty] at hne
      exact hne rfl
    unfold textFault?
    rw [if_neg h.fits.nul, if_neg hempty, if_neg (Nat.not_lt.mpr h.fits.length)]
  rw [Directory.find_eq, htext]
  simp only [walk_plain h.place h.plain h.fits.names h.clear hne, locationOf, List.dropLast_append_of_ne_nil hne]
  split <;> rfl

theorem Open.isNamed (h : d.Open p) (hne : namesOf p ≠ []) (l : Location) : (targetAt p l).isNamed = true := by
  have hlast := List.getLast?_eq_getLast_of_ne_nil hne
  obtain ⟨hdot, hup⟩ := h.plain _ (List.getLast_mem hne)
  simp [targetAt, hlast, hdot, hup]

theorem locationOf_eq (d : Directory) (hne : namesOf p ≠ []) :
    ∃ name, d.locationOf p = (d.locationOf p).dropLast ++ [name] := by
  have hlocation : d.locationOf p ≠ [] := List.append_ne_nil_of_right_ne_nil _ hne
  exact ⟨_, (List.dropLast_concat_getLast hlocation).symm⟩

theorem Open.isDirectory_eq (h : d.Open p) (hne : namesOf p ≠ []) :
    d.isDirectory p = d.tree.isDirectory (d.locationOf p) := by
  rw [Bool.eq_iff_iff, isDirectory_iff, h.find_eq hne]
  split
  · simp [targetAt]
  · rename_i hparent
    have hnot : d.tree.isDirectory (d.locationOf p) ≠ true := fun hfolder =>
      hparent (FileTree.isDirectory_of_isPrefix hfolder (List.dropLast_prefix _))
    simp [hnot]

/-- **What making a directory comes to when the way is clear.** -/
theorem Open.makeDirectory_cases (h : d.Open p) (hne : namesOf p ≠ []) :
    (d.makeDirectory p = .error .notFound ∧ d.tree.isDirectory (d.locationOf p).dropLast = false) ∨
    (d.makeDirectory p = .error .alreadyExists ∧ d.tree.isDirectory (d.locationOf p) = true) ∨
    ∃ d', d.makeDirectory p = .ok d' ∧ d.Grows d' ∧ d'.tree.isDirectory (d.locationOf p) = true ∧
      ∀ l, d'.tree.item? l ≠ d.tree.item? l → l = d.locationOf p := by
  have hnamed := h.isNamed hne (d.locationOf p)
  obtain ⟨name, hlocation⟩ := d.locationOf_eq hne
  by_cases hparent : d.tree.isDirectory (d.locationOf p).dropLast = true
  · have hfind := h.find_eq hne
    rw [if_pos hparent] at hfind
    cases hthere : d.tree.at? (d.locationOf p) with
    | some node =>
      refine .inr (.inl ⟨by simp [makeDirectory, hfind, bind, Except.bind, targetAt, hthere], ?_⟩)
      exact h.clear.isDirectory fun hnone => by simp [FileTree.item?_eq_none, hthere] at hnone
    | none =>
      have hmade : d.makeDirectory p = .ok { d with tree := d.tree.put (d.locationOf p) (.directory []) } := by
        simp only [makeDirectory, hfind, bind, Except.bind, hnamed]
        simp [targetAt, hthere]
      have hnone : d.tree.item? ((d.locationOf p).dropLast ++ [name]) = none := by
        rw [← hlocation, FileTree.item?_eq_none, hthere]
      have hput := FileTree.item?_put hparent name (.directory [])
      have hgains := FileTree.Gains.put hparent hnone
      rw [← hlocation] at hput hgains hnone
      refine .inr (.inr ⟨_, hmade, ⟨rfl, hgains⟩, ?_, fun l hl => ?_⟩)
      · rw [FileTree.isDirectory_iff, hput, if_pos (List.prefix_refl _)]
        simp [FileNode.bare]
      · by_contra hother
        -- below the new directory there was nothing, and there is nothing
        refine hl ((hput l).trans ?_)
        split
        · rename_i hbelow
          obtain ⟨rest, rfl⟩ := hbelow
          obtain ⟨key, rest, rfl⟩ := List.exists_cons_of_ne_nil (l := rest) (by simpa using hother)
          rw [FileTree.item?_eq_none_of_isPrefix hnone (List.prefix_append _ _), List.drop_left]
          rfl
        · rfl
  · have hfind := h.find_eq hne
    rw [if_neg hparent] at hfind
    exact .inl ⟨by simp [makeDirectory, hfind, bind, Except.bind], by simpa using hparent⟩

/-! ### parents and later directories -/

theorem base_parent (d : Directory) (h : IsPlain p) (hq : p.parent? = some q) : d.base q = d.base p := by
  rw [base, base, (Path.namesOf_parent h hq).2]

theorem locationOf_parent (d : Directory) (h : IsPlain p) (hq : p.parent? = some q) :
    d.locationOf q = (d.locationOf p).dropLast := by
  have hne : namesOf p ≠ [] := fun hnil => by simp [(Path.parent?_eq_none h).mpr hnil] at hq
  rw [locationOf, locationOf, d.base_parent h hq, (Path.namesOf_parent h hq).1, List.dropLast_append_of_ne_nil hne]

theorem Open.parent (h : d.Open p) (hq : p.parent? = some q) : d.Open q where
  plain := h.plain.parent hq
  fits := h.fits.parent h.plain hq
  place := by
    rw [d.base_parent h.plain hq]
    exact h.place
  clear := by
    rw [d.locationOf_parent h.plain hq]
    exact h.clear.of_isPrefix (List.dropLast_prefix _)

theorem Grows.base_eq (h : d.Grows d') (p : Path) : d'.base p = d.base p := by
  rw [base, base, h.1]

theorem Grows.locationOf_eq (h : d.Grows d') (p : Path) : d'.locationOf p = d.locationOf p := by
  rw [locationOf, locationOf, h.base_eq]

theorem Open.grows (h : d.Open p) (hgrows : d.Grows d') : d'.Open p where
  plain := h.plain
  fits := h.fits
  place := by
    rw [hgrows.base_eq]
    exact hgrows.2.isDirectory h.place
  clear := by
    rw [hgrows.locationOf_eq]
    exact h.clear.gains hgrows.2

end Directory

end Fleet
