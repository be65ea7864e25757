import Fleet.Proofs.Text

/-!
# The lines of a text

`rows` are the lines of a text as `lines` gives them, but with a blank one behind a newline at the end.  `rawLines` cuts
a text into its lines with their terminators, so that nothing of it is lost, and `keepLines` puts some of them together
again.  If a line is kept or not whatever its terminator is, the lines of the new text are those of the old one that are
kept (`lines_keepLines`).
-/

namespace Fleet.Text

@[elab_as_elim]
theorem line_induction {motive : List Char → Prop} (last : ∀ l, '\n' ∉ l → motive l)
    (line : ∀ l rest, '\n' ∉ l → motive rest → motive (l ++ '\n' :: rest)) (s : List Char) : motive s :=
  piece_induction '\n' last line s

theorem splitOn_line {l : List Char} (hl : '\n' ∉ l) (rest : List Char) :
    (l ++ '\n' :: rest).splitOn '\n' = l :: rest.splitOn '\n' :=
  List.splitOn_append_cons_self_of_not_mem hl rest

/-! ### the lines of a text -/

theorem lines_last {l : List Char} (hl : '\n' ∉ l) : lines l = if l = [] then [] else [l] := by
  rw [lines, List.splitOn_eq_singleton hl]
  by_cases h : l = [] <;> simp [h]

theorem lines_line {l : List Char} (hl : '\n' ∉ l) (rest : List Char) :
    lines (l ++ '\n' :: rest) = dropReturn l :: lines rest := by
  rw [lines, splitOn_line hl, lines]
  obtain ⟨first, others, hsplit⟩ := List.exists_cons_of_ne_nil (List.splitOn_ne_nil '\n' rest)
  simp [hsplit, List.getLast?_cons_cons]

/-- What stands between the newlines of a text, each without a carriage return at its end. -/
def rows (s : List Char) : List (List Char) := (s.splitOn '\n').map dropReturn

theorem rows_last {l : List Char} (hl : '\n' ∉ l) : rows l = [dropReturn l] := by
  rw [rows, List.splitOn_eq_singleton hl, List.map_singleton]

theorem rows_line {l : List Char} (hl : '\n' ∉ l) (rest : List Char) :
    rows (l ++ '\n' :: rest) = dropReturn l :: rows rest := by
  rw [rows, splitOn_line hl, List.map_cons, rows]

theorem trim_dropReturn (l : List Char) : trim (dropReturn l) = trim l := by
  rw [dropReturn]
  split
  · rename_i hlast
    conv_rhs => rw [← List.dropLast_append_getLast? _ hlast]
    rw [trim_append_blank (List.forall_mem_singleton.mpr rfl)]
  · rfl

theorem newline_not_mem_rows {s row : List Char} (h : row ∈ rows s) : '\n' ∉ row := by
  obtain ⟨part, hpart, rfl⟩ := List.mem_map.mp h
  have hfree : '\n' ∉ part := not_mem_of_mem_splitOn hpart
  rw [dropReturn]
  split
  · exact fun hmem => hfree (List.dropLast_subset _ hmem)
  · exact hfree

/-- The lines of a text, with their terminators. -/
def rawLines (s : List Char) : List (List Char) :=
  let parts := s.splitOn '\n'
  parts.dropLast.map (· ++ ['\n']) ++ (parts.getLast?.filter (· ≠ [])).toList

theorem rawLines_last {l : List Char} (hl : '\n' ∉ l) : rawLines l = if l = [] then [] else [l] := by
  rw [rawLines, List.splitOn_eq_singleton hl]
  by_cases h : l = [] <;> simp [h]

theorem rawLines_line {l : List Char} (hl : '\n' ∉ l) (rest : List Char) :
    rawLines (l ++ '\n' :: rest) = (l ++ ['\n']) :: rawLines rest := by
  rw [rawLines, splitOn_line hl, rawLines]
  obtain ⟨first, others, hsplit⟩ := List.exists_cons_of_ne_nil (List.splitOn_ne_nil '\n' rest)
  simp [hsplit, List.getLast?_cons_cons]

/-! ### leaving out lines -/

/-- The text of the lines that are kept. -/
def keepLines (keep : List Char → Bool) (s : List Char) : List Char := ((rawLines s).filter keep).flatten

theorem lines_keepLines {keep : List Char → Bool}
    (hkeep : ∀ l, '\n' ∉ l → keep (l ++ ['\n']) = keep (dropReturn l)) (s : List Char) :
    lines (keepLines keep s) = (lines s).filter keep := by
  induction s using line_induction with
  | last l hl =>
    rw [keepLines, rawLines_last hl, lines_last hl]
    by_cases h : l = []
    · simp [h, lines]
    · cases hk : keep l with
      | true => simp [h, hk, lines_last hl]
      | false => simp [h, hk, lines]
  | line l rest hl ih =>
    rw [keepLines, rawLines_line hl, lines_line hl, List.filter_cons, List.filter_cons, hkeep l hl]
    cases keep (dropReturn l) with
    | true =>
      have hcons : (l ++ ['\n']) ++ keepLines keep rest = l ++ '\n' :: keepLines keep rest := by simp
      simp only [if_true, List.flatten_cons]
      rw [← keepLines, hcons, lines_line hl, ih]
    | false => exact ih

end Fleet.Text
