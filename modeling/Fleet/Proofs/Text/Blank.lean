import Fleet.Proofs.Text

/-!
# Blanks around texts

Trimming leaves a text that has no blank at either end (`tight_trim`), and takes nothing away from such a text
(`Tight.trim_between`).  Blanks around a text end up around its first and its last piece when the text is split, so they
make no difference once the pieces are trimmed (`map_trim_splitOn_trim`).
-/

namespace Fleet.Text

/-- There is nothing but blanks in a text. -/
def Blank (s : List Char) : Prop := ∀ c ∈ s, isBlank c = true

instance : DecidablePred Blank := fun s => List.decidableBAll (isBlank · = true) s

/-- There is no blank at either end of a text. -/
structure Tight (s : List Char) : Prop where
  begins : ∀ c, s.head? = some c → isBlank c = false
  ends : ∀ c, s.getLast? = some c → isBlank c = false

theorem tight_iff {s : List Char} :
    Tight s ↔ s.head?.any isBlank = false ∧ s.getLast?.any isBlank = false := by
  rw [Option.any_eq_false, Option.any_eq_false]
  exact ⟨fun h => ⟨h.begins, h.ends⟩, fun ⟨hbegins, hends⟩ => ⟨hbegins, hends⟩⟩

instance : DecidablePred Tight := fun _ => decidable_of_iff _ tight_iff.symm

/-! ### trimming -/

theorem dropWhile_eq_self {p : Char → Bool} {s : List Char} (h : ∀ c, s.head? = some c → p c = false) :
    s.dropWhile p = s := by
  cases s with
  | nil => rfl
  | cons c rest => rw [List.dropWhile_cons_of_neg (by simp [h c rfl])]

theorem head?_dropWhile {p : Char → Bool} {s : List Char} {c : Char} (h : (s.dropWhile p).head? = some c) :
    p c = false := by
  have hnot := List.head?_dropWhile_not p s
  rw [h] at hnot
  exact hnot

theorem trim_eq_nil {s : List Char} : trim s = [] ↔ Blank s := by
  constructor
  · intro h
    obtain ⟨before, after, hbefore, hafter, hs⟩ := exists_blanks s
    rw [h, List.append_nil] at hs
    intro c hc
    rw [hs] at hc
    rcases List.mem_append.mp hc with hc | hc
    · exact hbefore c hc
    · exact hafter c hc
  · intro h
    have hnil := trim_blank_append h []
    rwa [List.append_nil] at hnil

theorem tight_trim (s : List Char) : Tight (trim s) := by
  constructor
  · intro c hc
    -- what the end is trimmed of leaves the beginning as it is
    have hbegins : trim s <+: trimStart s := by
      rw [trim, trimEnd, ← List.reverse_suffix, List.reverse_reverse]
      exact List.dropWhile_suffix isBlank
    obtain ⟨after, hafter⟩ := hbegins
    have hhead : (s.dropWhile isBlank).head? = some c := by
      rw [← trimStart, ← hafter, List.head?_append, hc, Option.some_or]
    exact head?_dropWhile hhead
  · intro c hc
    rw [trim, trimEnd, List.getLast?_reverse] at hc
    exact head?_dropWhile hc

theorem Tight.trim_eq {s : List Char} (h : Tight s) : trim s = s := by
  have hstart : trimStart s = s := dropWhile_eq_self h.begins
  have hend : s.reverse.dropWhile isBlank = s.reverse := by
    refine dropWhile_eq_self fun c hc => h.ends c ?_
    rwa [List.head?_reverse] at hc
  rw [trim, hstart, trimEnd, hend, List.reverse_reverse]

theorem Tight.trim_between {s before after : List Char} (h : Tight s) (hbefore : Blank before)
    (hafter : Blank after) : trim (before ++ s ++ after) = s := by
  rw [trim_append_blank hafter, trim_blank_append hbefore, h.trim_eq]

/-! ### splitting -/

variable {a : Char} {b : List Char}

theorem Blank.not_mem (h : Blank b) (ha : isBlank a = false) : a ∉ b := fun hmem => by
  rw [h a hmem] at ha
  cases ha

theorem map_trim_blank_append (hb : Blank b) (ha : isBlank a = false) (s : List Char) :
    ((b ++ s).splitOn a).map trim = (s.splitOn a).map trim := by
  have hfree := hb.not_mem ha
  induction s using piece_induction a with
  | last l hl => simp [List.splitOn_eq_singleton, hfree, hl, trim_blank_append hb]
  | piece l rest hl _ =>
    have hboth : a ∉ b ++ l := by simp [hfree, hl]
    rw [← List.append_assoc, List.splitOn_append_cons_self_of_not_mem hboth,
      List.splitOn_append_cons_self_of_not_mem hl, List.map_cons, List.map_cons, trim_blank_append hb]

theorem map_trim_append_blank (hb : Blank b) (ha : isBlank a = false) (s : List Char) :
    ((s ++ b).splitOn a).map trim = (s.splitOn a).map trim := by
  have hfree := hb.not_mem ha
  induction s using piece_induction a with
  | last l hl => simp [List.splitOn_eq_singleton, hfree, hl, trim_append_blank hb]
  | piece l rest hl ih =>
    have hcons : (l ++ a :: rest) ++ b = l ++ a :: (rest ++ b) := by simp
    rw [hcons, List.splitOn_append_cons_self_of_not_mem hl, List.splitOn_append_cons_self_of_not_mem hl,
      List.map_cons, List.map_cons, ih]

theorem map_trim_splitOn_trim (ha : isBlank a = false) (s : List Char) :
    ((trim s).splitOn a).map trim = (s.splitOn a).map trim := by
  obtain ⟨before, after, hbefore, hafter, hs⟩ := exists_blanks s
  conv_rhs => rw [hs, map_trim_append_blank hafter ha, map_trim_blank_append hbefore ha]

end Fleet.Text
