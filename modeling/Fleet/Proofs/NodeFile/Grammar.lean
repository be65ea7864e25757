import Fleet.Proofs.NodeFile
import Fleet.Proofs.Text.Blank
import Mathlib.Data.List.Forall2

/-!
# Which node files are accepted

A line is in order if it is blank, or if two commas cut it into three pieces none of which is blank.  A text is accepted
exactly if all its lines are in order, and then it gives a node for each line that is not blank (`readLines_inOrder`).
Otherwise the fault is about the first line that is not in order, by its number among all lines (`readLines_stray`).
-/

namespace Fleet.NodeFile

/-! ### lines -/

/-- Two commas cut a line into three pieces, none of them blank. -/
def HasNode (line : List Char) : Prop := line.count ',' = 2 ∧ ∀ piece ∈ line.splitOn ',', ¬ Text.Blank piece

def InOrder (line : List Char) : Prop := ¬ Text.Blank line → HasNode line

instance : DecidablePred HasNode := fun _ => inferInstanceAs (Decidable (_ ∧ _))

instance : DecidablePred InOrder := fun _ => inferInstanceAs (Decidable (_ → _))

/-- The pieces between the commas of a line, blanks around them aside, are the fields of a node. -/
def Describes (line : List Char) (entry : NodeEntry) : Prop :=
  (line.splitOn ',').map (fun piece => String.ofList (Text.trim piece)) = [entry.id, entry.descriptor, entry.nodeType]

/-- What there is to say about a line that is not in order: how many fields it has, or that one of three is empty. -/
def complaint (line : List Char) : LineFault :=
  if line.count ',' + 1 = 3 then .emptyField else .fieldCount (line.count ',' + 1)

/-- A text that can be a field: there is something in it, no blank at either end, and no comma or newline anywhere. -/
structure IsField (field : String) : Prop where
  filled : field ≠ ""
  tight : Text.Tight field.toList
  comma : ',' ∉ field.toList
  newline : '\n' ∉ field.toList

instance : DecidablePred IsField := fun field =>
  decidable_of_iff (field ≠ "" ∧ Text.Tight field.toList ∧ ',' ∉ field.toList ∧ '\n' ∉ field.toList)
    ⟨fun ⟨hfilled, htight, hcomma, hnewline⟩ => ⟨hfilled, htight, hcomma, hnewline⟩,
      fun h => ⟨h.filled, h.tight, h.comma, h.newline⟩⟩

/-- The fields of a node are texts that can be fields. -/
structure Writable (entry : NodeEntry) : Prop where
  id : IsField entry.id
  descriptor : IsField entry.descriptor
  nodeType : IsField entry.nodeType

instance : DecidablePred Writable := fun entry =>
  decidable_of_iff (IsField entry.id ∧ IsField entry.descriptor ∧ IsField entry.nodeType)
    ⟨fun ⟨hid, hdescriptor, hnodeType⟩ => ⟨hid, hdescriptor, hnodeType⟩, fun h => ⟨h.id, h.descriptor, h.nodeType⟩⟩

theorem fields_eq (line : List Char) :
    fields line = (line.splitOn ',').map fun piece => String.ofList (Text.trim piece) := by
  have htrim := congrArg (List.map String.ofList) (Text.map_trim_splitOn_trim (a := ',') rfl line)
  rw [List.map_map, List.map_map] at htrim
  exact htrim

theorem ofList_trim_eq_empty {piece : List Char} : String.ofList (Text.trim piece) = "" ↔ Text.Blank piece := by
  rw [← Text.trim_eq_nil, ← String.toList_inj, String.toList_ofList]
  rfl

theorem HasNode.not_blank {line : List Char} (h : HasNode line) : ¬ Text.Blank line := by
  intro hblank
  have hnone : line.count ',' = 0 := List.count_eq_zero_of_not_mem (hblank.not_mem rfl)
  have htwo := h.1
  omega

theorem exists_pieces {line : List Char} (h : line.count ',' = 2) : ∃ a b c, line.splitOn ',' = [a, b, c] := by
  rw [← List.length_eq_three, Text.length_splitOn, h]

theorem readLine_blank {line : List Char} (h : Text.Blank line) : readLine line = .ok none := by
  rw [readLine, if_pos (Text.trim_eq_nil.mpr h)]

theorem readLine_node {line : List Char} (h : HasNode line) :
    ∃ entry, Describes line entry ∧ readLine line = .ok (some entry) := by
  have hfilled : Text.trim line ≠ [] := fun hnil => h.not_blank (Text.trim_eq_nil.mp hnil)
  obtain ⟨a, b, c, hpieces⟩ := exists_pieces h.1
  have hfields : fields line = [.ofList (Text.trim a), .ofList (Text.trim b), .ofList (Text.trim c)] := by
    rw [fields_eq, hpieces]
    rfl
  have hnone := h.2
  rw [hpieces] at hnone
  refine ⟨⟨.ofList (Text.trim a), .ofList (Text.trim b), .ofList (Text.trim c)⟩, ?_, ?_⟩
  · rw [Describes, ← fields_eq, hfields]
  · rw [readLine, if_neg hfilled, hfields]
    simp only [ofList_trim_eq_empty]
    rw [if_neg]
    simpa using hnone

theorem readLine_stray {line : List Char} (h : ¬ InOrder line) : readLine line = .error (complaint line) := by
  obtain ⟨hblank, hnode⟩ := Classical.not_imp.mp h
  have hfilled : Text.trim line ≠ [] := fun hnil => hblank (Text.trim_eq_nil.mp hnil)
  rw [readLine, if_neg hfilled, complaint]
  by_cases htwo : line.count ',' = 2
  · -- three fields, so one of them is blank
    obtain ⟨a, b, c, hpieces⟩ := exists_pieces htwo
    have hfields : fields line = [.ofList (Text.trim a), .ofList (Text.trim b), .ofList (Text.trim c)] := by
      rw [fields_eq, hpieces]
      rfl
    have hsome : Text.Blank a ∨ Text.Blank b ∨ Text.Blank c := by
      by_contra hnone
      refine hnode ⟨htwo, ?_⟩
      rw [hpieces]
      simpa using hnone
    rw [hfields, if_pos (congrArg Nat.succ htwo)]
    simp only [ofList_trim_eq_empty]
    rw [if_pos hsome]
  · have hlength : (fields line).length = line.count ',' + 1 := by
      rw [fields_eq, List.length_map, Text.length_splitOn]
    rw [if_neg fun hthree => htwo (Nat.succ.inj hthree), ← hlength]
    split
    · rename_i hthree
      rw [hthree] at hlength
      exact absurd (Nat.succ.inj hlength).symm htwo
    · rfl

/-! ### all lines -/

variable {path : Path}

theorem readLines_inOrder (number : Nat) {lines : List (List Char)} (h : ∀ line ∈ lines, InOrder line) :
    ∃ entries, readLines path number lines = .ok entries ∧
      List.Forall₂ Describes (lines.filter fun line => ¬ Text.Blank line) entries := by
  induction lines generalizing number with
  | nil => exact ⟨[], rfl, .nil⟩
  | cons line rest ih =>
    obtain ⟨hline, hrest⟩ := List.forall_mem_cons.mp h
    obtain ⟨entries, hread, hdescribes⟩ := ih (number + 1) hrest
    by_cases hblank : Text.Blank line
    · refine ⟨entries, ?_, ?_⟩
      · simp only [readLines, readLine_blank hblank, hread]
      · rwa [List.filter_cons_of_neg (by simpa using hblank)]
    · obtain ⟨entry, hentry, hreads⟩ := readLine_node (hline hblank)
      refine ⟨entry :: entries, ?_, ?_⟩
      · simp only [readLines, hreads, hread]
      · rw [List.filter_cons_of_pos (by simpa using hblank)]
        exact .cons hentry hdescribes

theorem readLines_stray (number : Nat) {before : List (List Char)} (hbefore : ∀ line ∈ before, InOrder line)
    {line : List Char} (hline : ¬ InOrder line) (after : List (List Char)) :
    readLines path number (before ++ line :: after) =
      .error (.malformedNodeFile path (number + before.length) (complaint line)) := by
  -- lines in order make no fault and count one each, whether they have a node or not
  induction before generalizing number with
  | nil => simp only [List.nil_append, readLines, readLine_stray hline, List.length_nil, Nat.add_zero]
  | cons first rest ih =>
    obtain ⟨hfirst, hrest⟩ := List.forall_mem_cons.mp hbefore
    have hnumber : number + (first :: rest).length = number + 1 + rest.length := by
      rw [List.length_cons]
      omega
    rw [List.cons_append, readLines, ih (number + 1) hrest, hnumber]
    by_cases hblank : Text.Blank first
    · rw [readLine_blank hblank]
    · obtain ⟨entry, -, hreads⟩ := readLine_node (hfirst hblank)
      rw [hreads]

theorem inOrder_or_stray (lines : List (List Char)) :
    (∀ line ∈ lines, InOrder line) ∨
      ∃ before line after, lines = before ++ line :: after ∧ (∀ l ∈ before, InOrder l) ∧ ¬ InOrder line := by
  induction lines with
  | nil => exact .inl (by simp)
  | cons first rest ih =>
    by_cases hfirst : InOrder first
    · rcases ih with hall | ⟨before, line, after, rfl, hbefore, hline⟩
      · exact .inl (List.forall_mem_cons.mpr ⟨hfirst, hall⟩)
      · exact .inr ⟨first :: before, line, after, rfl, List.forall_mem_cons.mpr ⟨hfirst, hbefore⟩, hline⟩
    · exact .inr ⟨[], first, rest, rfl, by simp, hfirst⟩

theorem readLine_congr {line line' : List Char} (h : Text.trim line = Text.trim line') :
    readLine line = readLine line' := by
  unfold readLine fields
  rw [h]

theorem readLines_rows (number : Nat) (s : List Char) :
    readLines path number (Text.lines s) = readLines path number (Text.rows s) := by
  induction s using Text.line_induction generalizing number with
  | last l hl =>
    rw [Text.lines_last hl, Text.rows_last hl]
    by_cases hnil : l = []
    · subst hnil
      rfl
    · rw [if_neg hnil]
      simp only [readLines, readLine_congr (Text.trim_dropReturn l)]
  | line l rest hl ih =>
    rw [Text.lines_line hl, Text.rows_line hl]
    simp only [readLines, ih]

theorem writable_of_readLine {line : List Char} {entry : NodeEntry} (h : readLine line = .ok (some entry))
    (hline : '\n' ∉ line) : Writable entry := by
  obtain ⟨hfields, hid, hdescriptor, hnodeType⟩ := readLine_eq_some h
  have hfield : ∀ field ∈ [entry.id, entry.descriptor, entry.nodeType], field ≠ "" → IsField field := by
    intro field hmem hfilled
    rw [← hfields, fields_eq] at hmem
    obtain ⟨piece, hpiece, rfl⟩ := List.mem_map.mp hmem
    have hsubset : Text.trim piece ⊆ piece := (Text.trim_sublist piece).subset
    refine ⟨hfilled, ?_, ?_, ?_⟩ <;> rw [String.toList_ofList]
    · exact Text.tight_trim piece
    · exact fun hcomma => Text.not_mem_of_mem_splitOn hpiece (hsubset hcomma)
    · exact fun hnewline => hline (Text.subset_of_mem_splitOn hpiece (hsubset hnewline))
  exact ⟨hfield _ (by simp) hid, hfield _ (by simp) hdescriptor, hfield _ (by simp) hnodeType⟩

/-! ### texts -/

theorem parse_eq_readLines (path : Path) (text : String) :
    parse path text = readLines path 1 (Text.rows text.toList) :=
  readLines_rows 1 text.toList

theorem writable_of_parse {text : String} {entries : List NodeEntry} (h : parse path text = .ok entries)
    {entry : NodeEntry} (hentry : entry ∈ entries) : Writable entry := by
  rw [parse_eq_readLines] at h
  obtain ⟨line, hline, hread⟩ := mem_readLines h hentry
  exact writable_of_readLine hread (Text.newline_not_mem_rows hline)

theorem parse_inOrder (path : Path) {text : String} (h : ∀ line ∈ Text.rows text.toList, InOrder line) :
    ∃ entries, parse path text = .ok entries ∧
      List.Forall₂ Describes ((Text.rows text.toList).filter fun line => ¬ Text.Blank line) entries := by
  rw [parse_eq_readLines]
  exact readLines_inOrder 1 h

theorem parse_stray (path : Path) {text : String} {before after : List (List Char)} {line : List Char}
    (hrows : Text.rows text.toList = before ++ line :: after) (hbefore : ∀ l ∈ before, InOrder l)
    (hline : ¬ InOrder line) :
    parse path text = .error (.malformedNodeFile path (before.length + 1) (complaint line)) := by
  rw [parse_eq_readLines, hrows, readLines_stray 1 hbefore hline, Nat.add_comm]

theorem inOrder_of_parse {text : String} {entries : List NodeEntry} (h : parse path text = .ok entries) :
    ∀ line ∈ Text.rows text.toList, InOrder line := by
  rcases inOrder_or_stray (Text.rows text.toList) with hall | ⟨before, line, after, hrows, hbefore, hline⟩
  · exact hall
  · rw [parse_stray path hrows hbefore hline] at h
    cases h

/-- **Which node files are accepted.**  A text is accepted exactly if each of its lines that is not blank has two commas
and three fields that are not blank, and then it gives the nodes of these lines in their order, with the trimmed fields.
Otherwise the fault is about the first line that is not in order and names its number; the first line has number one,
and blank lines are counted. -/
theorem parse_grammar (path : Path) (text : String) :
    ((∃ entries, parse path text = .ok entries) ↔
      ∀ line ∈ Text.rows text.toList, ¬ Text.Blank line →
        line.count ',' = 2 ∧ ∀ piece ∈ line.splitOn ',', ¬ Text.Blank piece) ∧
    (∀ entries, parse path text = .ok entries →
      List.Forall₂ Describes ((Text.rows text.toList).filter fun line => ¬ Text.Blank line) entries ∧
      ∀ entry ∈ entries, Writable entry) ∧
    ∀ fault, parse path text = .error fault ↔
      ∃ before line after, Text.rows text.toList = before ++ line :: after ∧ (∀ l ∈ before, InOrder l) ∧
        ¬ InOrder line ∧ fault = .malformedNodeFile path (before.length + 1) (complaint line) := by
  refine ⟨⟨?accepted, ?inOrder⟩, fun entries hparse => ?nodes, fun fault => ⟨fun hparse => ?first, ?refused⟩⟩
  case accepted =>
    rintro ⟨entries, hparse⟩
    exact inOrder_of_parse hparse
  case inOrder =>
    intro hall
    obtain ⟨entries, hparse, -⟩ := parse_inOrder path hall
    exact ⟨entries, hparse⟩
  case nodes =>
    obtain ⟨entries', hparse', hdescribes⟩ := parse_inOrder path (inOrder_of_parse hparse)
    obtain rfl : entries' = entries := Except.ok.inj (hparse'.symm.trans hparse)
    exact ⟨hdescribes, fun entry hentry => writable_of_parse hparse hentry⟩
  case first =>
    rcases inOrder_or_stray (Text.rows text.toList) with hall | ⟨before, line, after, hrows, hbefore, hline⟩
    · obtain ⟨entries, hok, -⟩ := parse_inOrder path hall
      rw [hok] at hparse
      cases hparse
    · rw [parse_stray path hrows hbefore hline] at hparse
      cases hparse
      exact ⟨before, line, after, hrows, hbefore, hline, rfl⟩
  case refused =>
    rintro ⟨before, line, after, hrows, hbefore, hline, rfl⟩
    exact parse_stray path hrows hbefore hline

/-- Two nodes with blanks around their fields, and a line of blanks between them. -/
def spacedNodes : String := " n1 ,a b,\tm510\r\n\u3000\r\nn2,x\ry ,r320\n"

theorem parse_grammar_sample :
    (∃ entries, parse ⟨"utah.csv"⟩ spacedNodes = .ok entries ∧ entries.map (·.descriptor) = ["a b", "x\ry"] ∧
      ∀ entry ∈ entries, Writable entry) ∧
    parse ⟨"utah.csv"⟩ (spacedNodes ++ "n3,c,r320,\nn4") = .error (.malformedNodeFile ⟨"utah.csv"⟩ 4 (.fieldCount 4)) ∧
    parse ⟨"utah.csv"⟩ (spacedNodes ++ " , ,r320 ") = .error (.malformedNodeFile ⟨"utah.csv"⟩ 4 .emptyField) := by
  have hparse : parse ⟨"utah.csv"⟩ spacedNodes = .ok [⟨"n1", "a b", "m510"⟩, ⟨"n2", "x\ry", "r320"⟩] := rfl
  have hfields := ((parse_grammar ⟨"utah.csv"⟩ spacedNodes).2.1 _ hparse).2
  refine ⟨⟨_, hparse, rfl, hfields⟩, ?_, ?_⟩
  · refine ((parse_grammar ⟨"utah.csv"⟩ _).2.2 _).mpr
      ⟨[" n1 ,a b,\tm510".toList, ['\u3000'], "n2,x\ry ,r320".toList], "n3,c,r320,".toList, ["n4".toList], ?_⟩
    decide
  · refine ((parse_grammar ⟨"utah.csv"⟩ _).2.2 _).mpr
      ⟨[" n1 ,a b,\tm510".toList, ['\u3000'], "n2,x\ry ,r320".toList], " , ,r320 ".toList, [], ?_⟩
    decide

end Fleet.NodeFile
