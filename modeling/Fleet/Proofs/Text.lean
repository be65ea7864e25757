import Fleet.Text.Blank
import Fleet.Text.Lines
import Mathlib.Data.List.Basic
import Mathlib.Data.List.Induction
import Mathlib.Data.List.TakeDrop
import Mathlib.Data.List.TakeWhile

/-!
# Splitting, joining and trimming texts

Texts are joined with a separator and split at it again.  The pieces of a split are free of the separator, and
texts that are free of it come back from their join.
-/

namespace Fleet.Text

/-! ### trimming -/

theorem trim_sublist (s : List Char) : (trim s).Sublist s := by
  have hend : (trim s).Sublist (trimStart s) := by
    have h := (List.dropWhile_sublist (l := (trimStart s).reverse) isBlank).reverse
    rwa [List.reverse_reverse] at h
  exact hend.trans (List.dropWhile_sublist isBlank)

theorem trim_blank_append {b : List Char} (hb : ∀ c ∈ b, isBlank c = true) (s : List Char) :
    trim (b ++ s) = trim s := by
  rw [trim, trimStart, List.dropWhile_append_of_pos hb]
  rfl

theorem trim_append_blank {b : List Char} (hb : ∀ c ∈ b, isBlank c = true) (s : List Char) :
    trim (s ++ b) = trim s := by
  have hend : ∀ t, trimEnd (t ++ b) = trimEnd t := by
    intro t
    rw [trimEnd, List.reverse_append, List.dropWhile_append_of_pos (by simpa using hb)]
    rfl
  rw [trim, trim, trimStart, trimStart, List.dropWhile_append]
  split
  · rename_i hempty
    rw [List.dropWhile_eq_nil_iff.mpr hb, List.isEmpty_iff.mp hempty]
  · exact hend _

theorem exists_blanks (s : List Char) :
    ∃ before after, (∀ c ∈ before, isBlank c = true) ∧ (∀ c ∈ after, isBlank c = true) ∧
      s = before ++ trim s ++ after := by
  refine ⟨s.takeWhile isBlank, ((trimStart s).reverse.takeWhile isBlank).reverse, ?_, ?_, ?_⟩
  · exact fun c hc => List.mem_takeWhile_imp hc
  · exact fun c hc => List.mem_takeWhile_imp (List.mem_reverse.mp hc)
  · have hend : trim s ++ ((trimStart s).reverse.takeWhile isBlank).reverse = trimStart s := by
      rw [trim, trimEnd, ← List.reverse_append, List.takeWhile_append_dropWhile, List.reverse_reverse]
    rw [List.append_assoc, hend]
    exact (List.takeWhile_append_dropWhile).symm

/-! ### splitting -/

theorem head?_splitOn (a : Char) (s : List Char) : (s.splitOn a).head? = some (s.takeWhile (· != a)) := by
  induction s with
  | nil => rfl
  | cons c rest ih =>
    rw [List.splitOn_cons_eq_if_modifyHead, List.takeWhile_cons]
    by_cases hc : c = a
    · simp [hc]
    · simp [hc, List.head?_modifyHead, ih]

theorem not_mem_of_mem_splitOn {a : Char} {s piece : List Char} (h : piece ∈ s.splitOn a) : a ∉ piece := by
  induction s generalizing piece with
  | nil =>
    rw [List.splitOn_nil, List.mem_singleton] at h
    simp [h]
  | cons c rest ih =>
    rw [List.splitOn_cons_eq_if_modifyHead] at h
    by_cases hc : c = a
    · rw [if_pos (by simpa using hc), List.mem_cons] at h
      rcases h with rfl | h
      · simp
      · exact ih h
    · rw [if_neg (by simpa using hc)] at h
      -- the character goes to the front of the first piece of the rest
      obtain ⟨first, others, hsplit⟩ := List.exists_cons_of_ne_nil (List.splitOn_ne_nil a rest)
      rw [hsplit] at h ih
      rw [List.modifyHead_cons, List.mem_cons] at h
      rcases h with rfl | h
      · have hfirst := ih List.mem_cons_self
        simp [hfirst, Ne.symm hc]
      · exact ih (List.mem_cons_of_mem _ h)

@[elab_as_elim]
theorem run_induction (p : Char → Prop) [DecidablePred p] {motive : List Char → Prop}
    (last : ∀ l, (∀ c ∈ l, ¬ p c) → motive l)
    (run : ∀ l c rest, (∀ d ∈ l, ¬ p d) → p c → motive rest → motive (l ++ c :: rest)) (s : List Char) : motive s := by
  suffices h : ∀ l, (∀ c ∈ l, ¬ p c) → motive (l ++ s) from h [] nofun
  induction s with
  | nil =>
    intro l hl
    rw [List.append_nil]
    exact last l hl
  | cons c rest ih =>
    intro l hl
    by_cases hc : p c
    · exact run l c rest hl hc (ih [] nofun)
    · have hcons : l ++ c :: rest = (l ++ [c]) ++ rest := by simp
      rw [hcons]
      exact ih (l ++ [c]) (List.forall_mem_append.mpr ⟨hl, by simpa using hc⟩)

@[elab_as_elim]
theorem piece_induction (a : Char) {motive : List Char → Prop} (last : ∀ l, a ∉ l → motive l)
    (piece : ∀ l rest, a ∉ l → motive rest → motive (l ++ a :: rest)) (s : List Char) : motive s := by
  induction s using run_induction (· = a) with
  | last l hl => exact last l fun ha => hl a ha rfl
  | run l c rest hl hc ih =>
    rw [hc]
    exact piece l rest (fun ha => hl a ha rfl) ih

theorem length_splitOn (a : Char) (s : List Char) : (s.splitOn a).length = s.count a + 1 := by
  induction s using piece_induction a with
  | last l hl => simp [List.splitOn_eq_singleton hl, List.count_eq_zero_of_not_mem hl]
  | piece l rest hl ih =>
    simp [List.splitOn_append_cons_self_of_not_mem hl, List.count_append, List.count_eq_zero_of_not_mem hl, ih]

theorem subset_of_mem_splitOn {a : Char} {s piece : List Char} (h : piece ∈ s.splitOn a) : piece ⊆ s := by
  induction s using piece_induction a with
  | last l hl =>
    rw [List.splitOn_eq_singleton hl, List.mem_singleton] at h
    rw [h]
    exact List.Subset.refl l
  | piece l rest hl ih =>
    rw [List.splitOn_append_cons_self_of_not_mem hl, List.mem_cons] at h
    rcases h with rfl | h
    · exact List.subset_append_left _ _
    · exact fun c hc => List.mem_append_right l (List.mem_cons_of_mem a (ih h hc))

theorem split_intercalate {separator : Char} {texts : List String} (hne : texts ≠ [])
    (h : ∀ t ∈ texts, separator ∉ t.toList) :
    split separator (String.intercalate (String.singleton separator) texts) = texts := by
  have hfree : ∀ t ∈ texts.map String.toList, separator ∉ t := by
    intro t ht
    obtain ⟨s, hs, rfl⟩ := List.mem_map.1 ht
    exact h s hs
  have hsplit := List.splitOn_intercalate separator hfree (by simpa using hne)
  rw [split, String.toList_intercalate, String.toList_singleton, hsplit, List.map_map]
  simp [Function.comp_def]

theorem split_append (separator : Char) (before after : String) :
    split separator (before ++ String.singleton separator ++ after) =
      split separator before ++ split separator after := by
  have htext : (before ++ String.singleton separator ++ after).toList = before.toList ++ separator :: after.toList := by
    simp
  rw [split, htext, List.splitOn_append_cons_self, List.map_append]
  rfl

theorem split_ne_nil (separator : Char) (s : String) : split separator s ≠ [] := by
  simp [split, List.splitOn_ne_nil]

theorem eq_of_split_singleton {separator : Char} {s piece : String} (h : split separator s = [piece]) : s = piece := by
  have hjoin : [separator].intercalate (s.toList.splitOn separator) = s.toList := List.intercalate_splitOn separator
  obtain ⟨piece', hsplit, rfl⟩ := List.map_eq_singleton_iff.mp h
  rw [hsplit, List.intercalate_singleton] at hjoin
  rw [hjoin, String.ofList_toList]

theorem splitOnce?_eq_some {separator : Char} {s before after : String} :
    splitOnce? separator s = some (before, after) ↔
      s.toList = before.toList ++ separator :: after.toList ∧ separator ∉ before.toList := by
  have hspan : s.toList.span (· != separator) =
      (s.toList.takeWhile (· != separator), s.toList.dropWhile (· != separator)) := List.span_eq_takeWhile_dropWhile ..
  rw [splitOnce?, hspan]
  constructor
  · intro h
    cases hrest : s.toList.dropWhile (· != separator) with
    | nil => simp [hrest] at h
    | cons c rest =>
      have hc : c = separator := by
        simpa [hrest] using List.head?_dropWhile_not (· != separator) s.toList
      simp only [hrest, Option.some.injEq, Prod.mk.injEq] at h
      obtain ⟨rfl, rfl⟩ := h
      subst hc
      rw [String.toList_ofList, String.toList_ofList, ← hrest]
      refine ⟨List.takeWhile_append_dropWhile.symm, fun hmem => ?_⟩
      simpa using List.mem_takeWhile_imp hmem
  · rintro ⟨hs, hfree⟩
    have hbefore : ∀ c ∈ before.toList, (c != separator) = true := fun c hc => by
      simpa using fun heq : c = separator => hfree (heq ▸ hc)
    rw [hs, List.takeWhile_append_of_pos hbefore, List.dropWhile_append_of_pos hbefore]
    simp

/-! ### lists of texts -/

theorem eraseDups_concat (texts : List String) (t : String) :
    (texts ++ [t]).eraseDups = if t ∈ texts then texts.eraseDups else texts.eraseDups ++ [t] := by
  rw [List.eraseDups_append]
  by_cases ht : t ∈ texts <;> simp [List.removeAll, ht, List.eraseDups_cons]

theorem nodup_eraseDups (texts : List String) : texts.eraseDups.Nodup := by
  induction texts using List.reverseRecOn with
  | nil => exact .nil
  | append_singleton texts t ih =>
    rw [eraseDups_concat]
    split
    · exact ih
    · rename_i hnew
      rw [List.nodup_append]
      refine ⟨ih, by simp, fun a ha b hb => ?_⟩
      rw [List.mem_singleton.mp hb]
      rintro rfl
      exact hnew (List.mem_eraseDups.mp ha)

/-! ### joining -/

theorem intercalate_eq_empty {separator : String} {texts : List String} (h : ∀ t ∈ texts, t ≠ "") :
    String.intercalate separator texts = "" ↔ texts = [] := by
  constructor
  · intro hjoin
    cases texts with
    | nil => rfl
    | cons t rest =>
      have ht : t ≠ "" := h t List.mem_cons_self
      cases rest with
      | nil =>
        rw [String.intercalate_singleton] at hjoin
        exact absurd hjoin ht
      | cons u rest =>
        rw [String.intercalate_cons_cons] at hjoin
        simp only [String.append_eq_empty_iff] at hjoin
        exact absurd hjoin.1.1 ht
  · rintro rfl
    exact String.intercalate_nil

theorem intercalate_append_cons (separator : String) (xs : List String) (y : String) (ys : List String) :
    String.intercalate separator (xs ++ y :: ys) =
      String.join (xs.map (· ++ separator)) ++ String.intercalate separator (y :: ys) := by
  induction xs with
  | nil => simp
  | cons x rest ih =>
    rw [List.cons_append, String.intercalate_cons_of_ne_nil (by simp), ih, List.map_cons, String.join_cons]
    simp only [String.append_assoc]

theorem intercalate_cons (separator x : String) (xs : List String) :
    String.intercalate separator (x :: xs) = x ++ String.join (xs.map (separator ++ ·)) := by
  induction xs generalizing x with
  | nil => simp
  | cons y rest ih =>
    rw [String.intercalate_cons_cons, ih, List.map_cons, String.join_cons]
    simp only [String.append_assoc]

end Fleet.Text
