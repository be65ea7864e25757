import Fleet.Proofs.NodeFile.Grammar

/-!
# Writing node files

Nodes can be laid out in a text in many ways: with blanks around their fields, blank lines between them, and either of
two terminators behind each line (`Layout`).  A text gives the nodes that it is a layout of (`readLines_layout`), and
every accepted text is a layout of the nodes it gives (`layout_of_readLines`).
-/

namespace Fleet.NodeFile

/-! ### layouts -/

def Gap (b : List Char) : Prop := Text.Blank b ∧ '\n' ∉ b

instance : DecidablePred Gap := fun _ => inferInstanceAs (Decidable (_ ∧ _))

def Padded (field : String) (piece : List Char) : Prop :=
  ∃ before after, Gap before ∧ Gap after ∧ piece = before ++ field.toList ++ after

def Written (entry : NodeEntry) (line : List Char) : Prop :=
  ∃ a b c, Padded entry.id a ∧ Padded entry.descriptor b ∧ Padded entry.nodeType c ∧
    line = a ++ ',' :: (b ++ ',' :: c)

def terminators : List (List Char) := [['\n'], ['\r', '\n']]

/-- A text in which nodes are laid out, line by line; only the last line needs no terminator. -/
inductive Layout : List NodeEntry → List Char → Prop where
  | lastGap {b : List Char} (hb : Gap b) : Layout [] b
  | lastNode {entry : NodeEntry} {line : List Char} (hline : Written entry line) : Layout [entry] line
  | gap {entries : List NodeEntry} {b t rest : List Char} (hb : Gap b) (ht : t ∈ terminators)
      (hrest : Layout entries rest) : Layout entries (b ++ t ++ rest)
  | node {entry : NodeEntry} {entries : List NodeEntry} {line t rest : List Char} (hline : Written entry line)
      (ht : t ∈ terminators) (hrest : Layout entries rest) : Layout (entry :: entries) (line ++ t ++ rest)

/-! ### reading what is laid out -/

variable {path : Path} {entry : NodeEntry} {field : String} {line piece : List Char}

theorem Padded.not_mem (h : Padded field piece) (hfield : IsField field) : ',' ∉ piece ∧ '\n' ∉ piece := by
  obtain ⟨before, after, hbefore, hafter, rfl⟩ := h
  have hcommas : ',' ∉ before ∧ ',' ∉ after := ⟨hbefore.1.not_mem rfl, hafter.1.not_mem rfl⟩
  constructor
  · simp [hcommas, hfield.comma]
  · simp [hbefore.2, hafter.2, hfield.newline]

theorem Padded.trim_eq (h : Padded field piece) (hfield : IsField field) : Text.trim piece = field.toList := by
  obtain ⟨before, after, hbefore, hafter, rfl⟩ := h
  exact hfield.tight.trim_between hbefore.1 hafter.1

theorem Written.newline_not_mem (h : Written entry line) (hentry : Writable entry) : '\n' ∉ line := by
  obtain ⟨a, b, c, ha, hb, hc, rfl⟩ := h
  simp [(ha.not_mem hentry.id).2, (hb.not_mem hentry.descriptor).2, (hc.not_mem hentry.nodeType).2]

theorem readLine_written (h : Written entry line) (hentry : Writable entry) : readLine line = .ok (some entry) := by
  obtain ⟨a, b, c, ha, hb, hc, rfl⟩ := h
  have hpieces : (a ++ ',' :: (b ++ ',' :: c)).splitOn ',' = [a, b, c] := by
    rw [List.splitOn_append_cons_self_of_not_mem (ha.not_mem hentry.id).1,
      List.splitOn_append_cons_self_of_not_mem (hb.not_mem hentry.descriptor).1,
      List.splitOn_eq_singleton (hc.not_mem hentry.nodeType).1]
  have hfields : fields (a ++ ',' :: (b ++ ',' :: c)) = [entry.id, entry.descriptor, entry.nodeType] := by
    rw [fields_eq, hpieces]
    simp [ha.trim_eq hentry.id, hb.trim_eq hentry.descriptor, hc.trim_eq hentry.nodeType]
  have hcomma : ',' ∈ a ++ ',' :: (b ++ ',' :: c) := by simp
  have hfilled : Text.trim (a ++ ',' :: (b ++ ',' :: c)) ≠ [] := fun hnil =>
    (Text.trim_eq_nil.mp hnil).not_mem rfl hcomma
  rw [readLine, if_neg hfilled, hfields]
  simp [hentry.id.filled, hentry.descriptor.filled, hentry.nodeType.filled]

theorem rows_terminated {t : List Char} (hline : '\n' ∉ line) (ht : t ∈ terminators) (rest : List Char) :
    ∃ row, Text.trim row = Text.trim line ∧ Text.rows (line ++ t ++ rest) = row :: Text.rows rest := by
  simp only [terminators, List.mem_cons, List.not_mem_nil, or_false] at ht
  rcases ht with rfl | rfl
  · refine ⟨Text.dropReturn line, Text.trim_dropReturn line, ?_⟩
    rw [List.append_assoc]
    exact Text.rows_line hline rest
  · have hreturn : '\n' ∉ line ++ ['\r'] := by simp [hline]
    have hcons : line ++ ['\r', '\n'] ++ rest = (line ++ ['\r']) ++ '\n' :: rest := by simp
    refine ⟨Text.dropReturn (line ++ ['\r']), ?_, ?_⟩
    · rw [Text.trim_dropReturn, Text.trim_append_blank (List.forall_mem_singleton.mpr rfl)]
    · rw [hcons]
      exact Text.rows_line hreturn rest

theorem readLines_layout {entries : List NodeEntry} {s : List Char} (h : Layout entries s)
    (hentries : ∀ entry ∈ entries, Writable entry) (number : Nat) :
    readLines path number (Text.rows s) = .ok entries := by
  induction h generalizing number with
  | @lastGap b hb =>
    have hread : readLine (Text.dropReturn b) = .ok none :=
      (readLine_congr (Text.trim_dropReturn b)).trans (readLine_blank hb.1)
    rw [Text.rows_last hb.2]
    simp only [readLines, hread]
  | @lastNode entry line hline =>
    have hentry : Writable entry := hentries entry List.mem_cons_self
    have hread : readLine (Text.dropReturn line) = .ok (some entry) :=
      (readLine_congr (Text.trim_dropReturn line)).trans (readLine_written hline hentry)
    rw [Text.rows_last (hline.newline_not_mem hentry)]
    simp only [readLines, hread]
  | @gap _ b _ rest hb ht _ ih =>
    obtain ⟨row, hrow, hrows⟩ := rows_terminated hb.2 ht rest
    have hread : readLine row = .ok none := (readLine_congr hrow).trans (readLine_blank hb.1)
    rw [hrows]
    simp only [readLines, hread, ih hentries]
  | @node entry _ line _ rest hline ht _ ih =>
    obtain ⟨hentry, hothers⟩ := List.forall_mem_cons.mp hentries
    obtain ⟨row, hrow, hrows⟩ := rows_terminated (hline.newline_not_mem hentry) ht rest
    have hread : readLine row = .ok (some entry) := (readLine_congr hrow).trans (readLine_written hline hentry)
    rw [hrows]
    simp only [readLines, hread, ih hothers]

/-! ### laying out what is read -/

theorem padded_trim (hpiece : '\n' ∉ piece) : Padded (String.ofList (Text.trim piece)) piece := by
  obtain ⟨before, after, hbefore, hafter, hpieces⟩ := Text.exists_blanks piece
  rw [hpieces] at hpiece
  simp only [List.mem_append, not_or] at hpiece
  refine ⟨before, after, ⟨hbefore, hpiece.1.1⟩, ⟨hafter, hpiece.2⟩, ?_⟩
  rw [String.toList_ofList]
  exact hpieces

theorem written_of_readLine (h : readLine line = .ok (some entry)) (hline : '\n' ∉ line) : Written entry line := by
  obtain ⟨hfields, -⟩ := readLine_eq_some h
  rw [fields_eq] at hfields
  have hlength : (line.splitOn ',').length = 3 := by simpa using congrArg List.length hfields
  obtain ⟨a, b, c, hpieces⟩ := List.length_eq_three.mp hlength
  have hfree : ∀ piece ∈ [a, b, c], '\n' ∉ piece := fun piece hpiece hmem =>
    hline (Text.subset_of_mem_splitOn (hpieces ▸ hpiece) hmem)
  have hjoin : [','].intercalate (line.splitOn ',') = line := List.intercalate_splitOn ','
  rw [hpieces] at hfields hjoin
  simp only [List.map_cons, List.map_nil, List.cons.injEq, and_true] at hfields
  obtain ⟨hid, hdescriptor, hnodeType⟩ := hfields
  refine ⟨a, b, c, ?_, ?_, ?_, ?_⟩
  · rw [← hid]
    exact padded_trim (hfree a (by simp))
  · rw [← hdescriptor]
    exact padded_trim (hfree b (by simp))
  · rw [← hnodeType]
    exact padded_trim (hfree c (by simp))
  · rw [← hjoin]
    simp [List.intercalate]

theorem blank_of_readLine (h : readLine line = .ok none) : Text.Blank line := by
  by_contra hblank
  by_cases hnode : HasNode line
  · obtain ⟨entry, -, hread⟩ := readLine_node hnode
    rw [h] at hread
    cases hread
  · rw [readLine_stray fun hinOrder => hnode (hinOrder hblank)] at h
    cases h

theorem layout_of_readLines {entries : List NodeEntry} (number : Nat) (s : List Char)
    (h : readLines path number (Text.rows s) = .ok entries) : Layout entries s := by
  induction s using Text.line_induction generalizing number entries with
  | last l hl =>
    rw [Text.rows_last hl] at h
    simp only [readLines, readLine_congr (Text.trim_dropReturn l)] at h
    split at h
    · cases h
    · rename_i hread
      cases h
      exact .lastGap ⟨blank_of_readLine hread, hl⟩
    · rename_i entry hread
      cases h
      exact .lastNode (written_of_readLine hread hl)
  | line l rest hl ih =>
    -- a carriage return before the newline is a blank of the line, so every line ends with a newline alone
    have hcons : l ++ '\n' :: rest = l ++ ['\n'] ++ rest := by simp
    rw [Text.rows_line hl] at h
    simp only [readLines, readLine_congr (Text.trim_dropReturn l)] at h
    rw [hcons]
    split at h
    · cases h
    · rename_i hread
      exact .gap ⟨blank_of_readLine hread, hl⟩ (by simp [terminators]) (ih (number + 1) h)
    · rename_i entry hread
      split at h
      · rename_i others hothers
        cases h
        exact .node (written_of_readLine hread hl) (by simp [terminators]) (ih (number + 1) hothers)
      · cases h

/-! ### writing -/

/-- The line of a node, with nothing around its fields. -/
def writeLine (entry : NodeEntry) : String :=
  entry.id ++ "," ++ entry.descriptor ++ "," ++ entry.nodeType ++ "\n"

/-- A text with a line for each node. -/
def write (entries : List NodeEntry) : String := String.join (entries.map writeLine)

theorem padded_self (field : String) : Padded field field.toList :=
  ⟨[], [], ⟨by simp [Text.Blank], by simp⟩, ⟨by simp [Text.Blank], by simp⟩, by simp⟩

theorem layout_write (entries : List NodeEntry) : Layout entries (write entries).toList := by
  induction entries with
  | nil => exact .lastGap ⟨by simp [write, Text.Blank], by simp [write]⟩
  | cons entry rest ih =>
    have hcons : (write (entry :: rest)).toList =
        (entry.id.toList ++ ',' :: (entry.descriptor.toList ++ ',' :: entry.nodeType.toList)) ++ ['\n'] ++
          (write rest).toList := by
      simp [write, writeLine]
    rw [hcons]
    exact .node ⟨_, _, _, padded_self _, padded_self _, padded_self _, rfl⟩ (by simp [terminators]) ih

theorem layout_of_parse {text : String} {entries : List NodeEntry} (h : parse path text = .ok entries) :
    Layout entries text.toList := by
  rw [parse_eq_readLines] at h
  exact layout_of_readLines 1 text.toList h

theorem parse_of_layout {text : String} {entries : List NodeEntry} (h : Layout entries text.toList)
    (hentries : ∀ entry ∈ entries, Writable entry) : parse path text = .ok entries := by
  rw [parse_eq_readLines]
  exact readLines_layout h hentries 1

/-- **Reading undoes writing.**  A text gives nodes exactly if their fields can be written and the text is a layout of
them, whatever the layout.  So nodes that were read are read again from what is written of them. -/
theorem parse_layout (path : Path) :
    (∀ entries text, parse path text = .ok entries ↔
      (∀ entry ∈ entries, Writable entry) ∧ Layout entries text.toList) ∧
    ∀ text entries, parse path text = .ok entries → ∀ path', parse path' (write entries) = .ok entries := by
  refine ⟨fun entries text => ⟨fun h => ⟨fun _ => writable_of_parse h, layout_of_parse h⟩, ?_⟩, ?_⟩
  · rintro ⟨hentries, hlayout⟩
    exact parse_of_layout hlayout hentries
  · intro text entries h path'
    exact parse_of_layout (layout_write entries) fun _ => writable_of_parse h

def twoNodes : List NodeEntry := [⟨"n1", "a b", "m510"⟩, ⟨"n2", "x\ry", "r320"⟩]

/-- The nodes with blanks around some of their fields, lines of blanks before and between, and no newline at the end. -/
def untidyNodes : String := "\t\n n1 ,a b,\u3000m510\r\n\r\nn2,x\ry, r320\r"

theorem parse_layout_sample :
    parse ⟨"utah.csv"⟩ untidyNodes = .ok twoNodes ∧ parse ⟨"again.csv"⟩ (write twoNodes) = .ok twoNodes := by
  have hfirst : Written ⟨"n1", "a b", "m510"⟩ " n1 ,a b,\u3000m510".toList :=
    ⟨_, _, _, ⟨[' '], [' '], by decide, by decide, rfl⟩, padded_self "a b",
      ⟨['\u3000'], [], by decide, by decide, rfl⟩, rfl⟩
  have hlast : Written ⟨"n2", "x\ry", "r320"⟩ "n2,x\ry, r320\r".toList :=
    ⟨_, _, _, padded_self "n2", padded_self "x\ry", ⟨[' '], ['\r'], by decide, by decide, rfl⟩, rfl⟩
  have hnodes : Layout twoNodes untidyNodes.toList :=
    .gap (b := ['\t']) (t := ['\n']) (by decide) (by decide) <|
      .node (t := ['\r', '\n']) hfirst (by decide) <|
        .gap (b := []) (t := ['\r', '\n']) (by decide) (by decide) <|
          .lastNode hlast
  have hwritable : ∀ entry ∈ twoNodes, Writable entry := by decide
  have hparse := ((parse_layout ⟨"utah.csv"⟩).1 twoNodes untidyNodes).mpr ⟨hwritable, hnodes⟩
  exact ⟨hparse, (parse_layout ⟨"utah.csv"⟩).2 untidyNodes twoNodes hparse ⟨"again.csv"⟩⟩

end Fleet.NodeFile
