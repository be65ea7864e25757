import Fleet.NodeFile
import Fleet.Proofs.Text.Lines

/-!
# What node files give

Every node that `parse` returns was read off one of the lines, and its fields are pieces of that line: they are not
empty, and no comma is left in them.  All of them together are the nodes that the text lists, line by line (`listed`),
and a text without the lines of some ids gives the nodes of all other ids (`parse_without`).
-/

namespace Fleet.NodeFile

theorem comma_not_mem_of_mem_fields {line : List Char} {f : String} (h : f ∈ fields line) : ',' ∉ f.toList := by
  obtain ⟨piece, hpiece, rfl⟩ := List.mem_map.1 h
  rw [String.toList_ofList]
  intro hcomma
  exact Text.not_mem_of_mem_splitOn hpiece ((Text.trim_sublist piece).subset hcomma)

theorem readLine_eq_some {line : List Char} {entry : NodeEntry} (h : readLine line = .ok (some entry)) :
    fields line = [entry.id, entry.descriptor, entry.nodeType] ∧
      entry.id ≠ "" ∧ entry.descriptor ≠ "" ∧ entry.nodeType ≠ "" := by
  unfold readLine at h
  split at h
  · cases h
  · split at h
    · rename_i id descriptor nodeType hfields
      split at h
      · cases h
      · rename_i hfull
        cases h
        simp only [not_or] at hfull
        exact ⟨hfields, hfull⟩
    · cases h

theorem mem_readLines {path : Path} {number : Nat} {lines : List (List Char)} {entries : List NodeEntry}
    (h : readLines path number lines = .ok entries) {entry : NodeEntry} (he : entry ∈ entries) :
    ∃ line ∈ lines, readLine line = .ok (some entry) := by
  induction lines generalizing number entries with
  | nil =>
    cases h
    exact absurd he (by simp)
  | cons line rest ih =>
    unfold readLines at h
    split at h
    · cases h
    · obtain ⟨l, hl, hread⟩ := ih h he
      exact ⟨l, List.mem_cons_of_mem _ hl, hread⟩
    · rename_i first hfirst
      split at h
      · rename_i others hothers
        cases h
        rcases List.mem_cons.1 he with rfl | he
        · exact ⟨line, List.mem_cons_self, hfirst⟩
        · obtain ⟨l, hl, hread⟩ := ih hothers he
          exact ⟨l, List.mem_cons_of_mem _ hl, hread⟩
      · cases h

theorem id_of_mem_parse {path : Path} {text : String} {entries : List NodeEntry}
    (h : parse path text = .ok entries) {entry : NodeEntry} (he : entry ∈ entries) :
    entry.id ≠ "" ∧ ',' ∉ entry.id.toList := by
  obtain ⟨line, -, hread⟩ := mem_readLines h he
  obtain ⟨hfields, hid, -⟩ := readLine_eq_some hread
  exact ⟨hid, comma_not_mem_of_mem_fields (by rw [hfields]; exact List.mem_cons_self)⟩

/-! ### the nodes that a text lists -/

/-- The node whose fields a line has, if it has three of them. -/
def nodeOf? (line : List Char) : Option NodeEntry :=
  match fields line with
  | [id, descriptor, nodeType] => some ⟨id, descriptor, nodeType⟩
  | _ => none

def listed (text : String) : List NodeEntry := (Text.lines text.toList).filterMap nodeOf?

theorem nodeOf?_of_readLine {line : List Char} {result : Option NodeEntry} (h : readLine line = .ok result) :
    nodeOf? line = result := by
  cases result with
  | none =>
    have hblank : Text.trim line = [] := by
      unfold readLine at h
      split at h
      · assumption
      · split at h
        · split at h <;> cases h
        · cases h
    simp [nodeOf?, fields, hblank]
  | some entry => simp [nodeOf?, (readLine_eq_some h).1]

theorem readLines_eq {path : Path} {number : Nat} {lines : List (List Char)} {entries : List NodeEntry}
    (h : readLines path number lines = .ok entries) : entries = lines.filterMap nodeOf? := by
  induction lines generalizing number entries with
  | nil =>
    cases h
    rfl
  | cons line rest ih =>
    unfold readLines at h
    split at h
    · cases h
    · rename_i hline
      rw [List.filterMap_cons, nodeOf?_of_readLine hline]
      exact ih h
    · rename_i entry hline
      rw [List.filterMap_cons, nodeOf?_of_readLine hline]
      split at h
      · rename_i others hothers
        cases h
        rw [ih hothers]
      · cases h

theorem listed_of_parse {path : Path} {text : String} {entries : List NodeEntry}
    (h : parse path text = .ok entries) : listed text = entries :=
  (readLines_eq h).symm

/-! ### leaving out lines -/

/-- The first field of a line: what stands before the first comma, without the blanks around it. -/
def firstField (line : List Char) : String := String.ofList (Text.trim (line.takeWhile (· != ',')))

/-- A text without the lines whose first field is one of the ids. -/
def without (ids : List String) (text : String) : String :=
  String.ofList (Text.keepLines (fun line => firstField line ∉ ids) text.toList)

theorem ne_comma_of_isBlank {c : Char} (h : Text.isBlank c = true) : (c != ',') = true := by
  refine bne_iff_ne.mpr ?_
  rintro rfl
  exact absurd h (by decide)

theorem firstField_blank_append {b : List Char} (hb : ∀ c ∈ b, Text.isBlank c = true) (line : List Char) :
    firstField (b ++ line) = firstField line := by
  rw [firstField, List.takeWhile_append_of_pos fun c hc => ne_comma_of_isBlank (hb c hc), Text.trim_blank_append hb]
  rfl

theorem firstField_append_blank {b : List Char} (hb : ∀ c ∈ b, Text.isBlank c = true) (line : List Char) :
    firstField (line ++ b) = firstField line := by
  have hall : b.takeWhile (· != ',') = b :=
    List.takeWhile_eq_self_iff.mpr fun c hc => ne_comma_of_isBlank (hb c hc)
  rw [firstField, firstField, List.takeWhile_append]
  split
  · rename_i hlength
    rw [hall, Text.trim_append_blank hb, (List.takeWhile_prefix _).eq_of_length hlength]
  · rfl

theorem firstField_trim (line : List Char) : firstField (Text.trim line) = firstField line := by
  obtain ⟨before, after, hbefore, hafter, hline⟩ := Text.exists_blanks line
  conv_rhs => rw [hline, firstField_append_blank hafter, firstField_blank_append hbefore]

theorem firstField_terminator (line : List Char) :
    firstField (line ++ ['\n']) = firstField (Text.dropReturn line) := by
  rw [firstField_append_blank (List.forall_mem_singleton.mpr rfl), Text.dropReturn]
  split
  · rename_i hlast
    have hline : line.dropLast ++ ['\r'] = line := by
      rw [List.dropLast_append_getLast? _ hlast]
    conv_lhs => rw [← hline]
    exact firstField_append_blank (List.forall_mem_singleton.mpr rfl) _
  · rfl

theorem firstField_of_readLine {line : List Char} {entry : NodeEntry} (h : readLine line = .ok (some entry)) :
    firstField line = entry.id := by
  have hhead : (fields line).head? = some (firstField (Text.trim line)) := by
    rw [fields, List.head?_map, Text.head?_splitOn]
    rfl
  rw [(readLine_eq_some h).1, firstField_trim] at hhead
  exact (Option.some.inj hhead).symm

theorem readLines_filter {path : Path} {ids : List String} {number : Nat} {lines : List (List Char)}
    {entries : List NodeEntry} (h : readLines path number lines = .ok entries) (number' : Nat) :
    readLines path number' (lines.filter fun line => firstField line ∉ ids) =
      .ok (entries.filter fun entry => entry.id ∉ ids) := by
  induction lines generalizing number number' entries with
  | nil =>
    cases h
    rfl
  | cons line rest ih =>
    unfold readLines at h
    rw [List.filter_cons]
    split at h
    · cases h
    · -- a blank line gives nothing, whether it is kept or not
      rename_i hline
      split
      · rw [readLines, hline]
        exact ih h _
      · exact ih h _
    · rename_i entry hline
      split at h
      · rename_i others hothers
        cases h
        rw [firstField_of_readLine hline, List.filter_cons]
        split
        · simp only [readLines, hline, ih hothers]
        · exact ih hothers _
      · cases h

theorem parse_without {path : Path} {text : String} {entries : List NodeEntry} (h : parse path text = .ok entries)
    (ids : List String) : parse path (without ids text) = .ok (entries.filter fun entry => entry.id ∉ ids) := by
  rw [parse, without, String.toList_ofList, Text.lines_keepLines fun l _ => by rw [firstField_terminator]]
  exact readLines_filter h 1

end Fleet.NodeFile
