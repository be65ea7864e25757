import Fleet.Proofs.Plan.Logs

/-!
# Labels of testbeds

A testbed is named after the last piece of its node file's path, which is what is left of the text between slashes when
slashes are dropped that are repeated or at the end, and each `.` that does not lead the path (`lastPiece?`).  The label
is this piece up to its first dot, if the piece is a name, and otherwise it is empty (`label_of_lastPiece`).  So the
label adds one name to whatever it is joined to, or nothing.
-/

namespace Fleet

namespace Path

/-- The pieces between slashes without the empty ones and without each `.` but a leading one. -/
def leftPieces (s : List Char) : List (List Char) :=
  match s.splitOn '/' with
  | [] => []
  | first :: rest => [first].filter (· ≠ []) ++ rest.filter fun piece => piece ≠ [] ∧ piece ≠ ['.']

def lastPiece? (p : Path) : Option String := (leftPieces p.text.toList).getLast?.map String.ofList

/-- The component that a piece stands for which has been left. -/
def Component.ofLeft (piece : List Char) : Component := (Component.ofPiece? piece).getD .current

theorem Component.ofPiece?_eq_none {piece : List Char} : Component.ofPiece? piece = none ↔ piece = [] ∨ piece = ['.'] := by
  unfold Component.ofPiece?
  split <;> simp_all

theorem Component.ofPiece?_eq_ofLeft {piece : List Char} (hempty : piece ≠ []) (hdot : piece ≠ ['.']) :
    Component.ofPiece? piece = some (ofLeft piece) := by
  cases hpiece : Component.ofPiece? piece with
  | none => simp_all [Component.ofPiece?_eq_none]
  | some c => rw [ofLeft, hpiece, Option.getD_some]

theorem filterMap_ofPiece? (pieces : List (List Char)) :
    pieces.filterMap Component.ofPiece? =
      (pieces.filter fun piece => piece ≠ [] ∧ piece ≠ ['.']).map Component.ofLeft := by
  induction pieces with
  | nil => rfl
  | cons piece rest ih =>
    by_cases hleft : piece ≠ [] ∧ piece ≠ ['.']
    · have hsome := Component.ofPiece?_eq_ofLeft hleft.1 hleft.2
      rw [List.filterMap_cons_some hsome, List.filter_cons_of_pos (by simpa using hleft), List.map_cons, ih]
    · have hnone : Component.ofPiece? piece = none := by
        rw [Component.ofPiece?_eq_none]
        by_contra hnot
        exact hleft (not_or.mp hnot)
      rw [List.filterMap_cons_none hnone, List.filter_cons_of_neg (by simpa using hleft), ih]

theorem componentsOf_eq (s : List Char) :
    componentsOf s = (if s.head? = some '/' then [.root] else []) ++ (leftPieces s).map Component.ofLeft := by
  have hfirst := Text.head?_splitOn '/' s
  obtain ⟨first, rest, hsplit⟩ := List.exists_cons_of_ne_nil (List.splitOn_ne_nil '/' s)
  rw [hsplit, List.head?_cons, Option.some_inj] at hfirst
  have hbody := filterMap_ofPiece? rest
  have hskip : ([] :: rest).filterMap Component.ofPiece? = rest.filterMap Component.ofPiece? :=
    List.filterMap_cons_none rfl
  simp only [componentsOf, leftPieces, hsplit, List.head?_cons, Option.some_inj, List.map_append, ← hbody]
  by_cases hroot : s.head? = some '/'
  · obtain ⟨tail, rfl⟩ : ∃ tail, s = '/' :: tail := List.head?_eq_some_iff.mp hroot
    have hempty : first = [] := by simpa using hfirst
    rw [if_pos hroot, if_pos hroot, hempty, hskip]
    simp
  · rw [if_neg hroot, if_neg hroot, List.nil_append]
    by_cases hdot : first = ['.']
    · simp [hdot, Component.ofPiece?, Component.ofLeft]
    · rw [if_neg hdot]
      by_cases hempty : first = []
      · rw [hempty, hskip]
        simp
      · simp [hempty, List.filterMap_cons_some (Component.ofPiece?_eq_ofLeft hempty hdot)]

theorem Component.ofLeft_eq_name {piece : List Char} {name : String} (h : ofLeft piece = .name name) :
    name = String.ofList piece := by
  unfold ofLeft ofPiece? at h
  split at h <;> simp_all

theorem getLast?_components (p : Path) :
    p.components.getLast? =
      (((leftPieces p.text.toList).getLast?.map Component.ofLeft).or (if p.isAbsolute then some .root else none)) := by
  have habsolute : p.isAbsolute = true ↔ p.text.toList.head? = some '/' := by simp [isAbsolute]
  rw [components, componentsOf_eq, List.getLast?_append, List.getLast?_map]
  by_cases hroot : p.text.toList.head? = some '/'
  · rw [if_pos hroot, if_pos (habsolute.mpr hroot)]
    rfl
  · rw [if_neg hroot, if_neg (mt habsolute.mp hroot)]
    rfl

theorem fileName?_eq_some {p : Path} {name : String} :
    p.fileName? = some name ↔ p.lastPiece? = some name ∧ IsName name := by
  have hlast := p.getLast?_components
  rw [fileName?, lastPiece?]
  constructor
  · intro h
    split at h
    · rename_i text hname
      cases h
      have hisName : IsName name := isName_of_mem (List.mem_of_getLast? hname)
      rw [hname] at hlast
      cases hpiece : (leftPieces p.text.toList).getLast? with
      | none =>
        rw [hpiece] at hlast
        cases hroot : p.isAbsolute <;> simp [hroot] at hlast
      | some piece =>
        rw [hpiece] at hlast
        have hpart : Component.ofLeft piece = .name name := by simpa using hlast.symm
        exact ⟨by rw [Option.map_some, Component.ofLeft_eq_name hpart], hisName⟩
    · cases h
  · rintro ⟨hpiece, hname⟩
    obtain ⟨piece, hleft, rfl⟩ := Option.map_eq_some_iff.mp hpiece
    have hpart : Component.ofLeft piece = .name (String.ofList piece) := by
      have hread := ofPiece?_toList hname
      rw [String.toList_ofList] at hread
      rw [Component.ofLeft, hread, Option.getD_some]
    rw [hleft, Option.map_some, hpart, Option.some_or] at hlast
    rw [hlast]

theorem leftPieces_eq_nil {s : List Char} (h : s.head? ≠ some '/') : leftPieces s = [] ↔ s = [] := by
  constructor
  · intro hnil
    have hfirst := Text.head?_splitOn '/' s
    obtain ⟨first, rest, hsplit⟩ := List.exists_cons_of_ne_nil (List.splitOn_ne_nil '/' s)
    rw [hsplit, List.head?_cons, Option.some_inj] at hfirst
    have hempty : first = [] := by
      by_contra hne
      simp [leftPieces, hsplit, hne] at hnil
    cases s with
    | nil => rfl
    | cons c rest => simp_all
  · rintro rfl
    rfl

theorem lastPiece?_eq_none {p : Path} : p.lastPiece? = none ↔ p.text = "" ∨ p.components = [.root] := by
  have hparts : p.components = _ := componentsOf_eq p.text.toList
  rw [lastPiece?, Option.map_eq_none_iff, List.getLast?_eq_none_iff]
  by_cases hroot : p.text.toList.head? = some '/'
  · have hne : p.text ≠ "" := fun heq => by simp [heq] at hroot
    rw [hparts, if_pos hroot]
    simp [hne]
  · have hrelative : p.components ≠ [.root] := by
      intro hpart
      rw [hparts, if_neg hroot, List.nil_append, List.map_eq_singleton_iff] at hpart
      obtain ⟨piece, -, hpiece⟩ := hpart
      unfold Component.ofLeft Component.ofPiece? at hpiece
      split at hpiece <;> simp at hpiece
    rw [leftPieces_eq_nil hroot, String.toList_eq_nil_iff]
    simp [hrelative]

theorem isName_of_lastPiece? {p : Path} {piece : String} (h : p.lastPiece? = some piece) :
    IsName piece ∨ piece = "." ∨ piece = ".." := by
  obtain ⟨chars, hlast, rfl⟩ := Option.map_eq_some_iff.mp h
  have hmem : chars ∈ leftPieces p.text.toList := List.mem_of_getLast? hlast
  obtain ⟨first, rest, hsplit⟩ := List.exists_cons_of_ne_nil (List.splitOn_ne_nil '/' p.text.toList)
  have hpiece : chars ∈ p.text.toList.splitOn '/' ∧ chars ≠ [] := by
    rw [hsplit]
    simp only [leftPieces, hsplit, List.mem_append, List.mem_filter, List.mem_singleton] at hmem
    rcases hmem with ⟨hfirst, hne⟩ | ⟨hrest, hne⟩ <;> simp_all
  have hslash : '/' ∉ chars := Text.not_mem_of_mem_splitOn hpiece.1
  by_cases hdot : String.ofList chars = "."
  · exact .inr (.inl hdot)
  · by_cases hup : String.ofList chars = ".."
    · exact .inr (.inr hup)
    · exact .inl ⟨by simpa using hpiece.2, hdot, hup, by rwa [String.toList_ofList]⟩

end Path

/-! ### the label -/

theorem label_of_lastPiece {p : Path} {name : String} (hpiece : p.lastPiece? = some name) (hname : Path.IsName name) :
    testbedLabel p = String.ofList (name.toList.takeWhile (· != '.')) := by
  rw [testbedLabel, Path.fileName?_eq_some.mpr ⟨hpiece, hname⟩]

theorem label_of_not_isName {p : Path} (h : ∀ name, p.lastPiece? = some name → ¬ Path.IsName name) :
    testbedLabel p = "" := by
  cases hfile : p.fileName? with
  | none => rw [testbedLabel, hfile]
  | some name =>
    obtain ⟨hpiece, hname⟩ := Path.fileName?_eq_some.mp hfile
    exact absurd hname (h name hpiece)

theorem label_eq_empty {p : Path} {name : String} (hpiece : p.lastPiece? = some name) (hname : Path.IsName name) :
    testbedLabel p = "" ↔ name.toList.head? = some '.' := by
  rw [label_of_lastPiece hpiece hname, String.ofList_eq_empty_iff]
  cases hchars : name.toList with
  | nil => exact absurd (String.toList_eq_nil_iff.mp hchars) hname.1
  | cons c rest => by_cases hc : c = '.' <;> simp [hc]

theorem dot_notMem_label (p : Path) : '.' ∉ (testbedLabel p).toList := by
  unfold testbedLabel
  split
  · intro hdot
    rw [String.toList_ofList] at hdot
    simpa using List.mem_takeWhile_imp hdot
  · simp

theorem exists_added {label : String} (h : label = "" ∨ Path.IsName label) (base : Path) :
    ∃ added, (base.child label).text = base.text ++ added := by
  have hrelative : ¬(Path.mk label).isAbsolute = true := by
    rcases h with rfl | hname
    · simp [Path.isAbsolute]
    · simpa [Path.isAbsolute] using fun hhead => hname.2.2.2 (List.mem_of_head? hhead)
  rw [Path.child, Path.join, if_neg hrelative]
  split
  · exact ⟨label, rfl⟩
  · exact ⟨"/" ++ label, by rw [String.append_assoc]⟩

/-- **The label of a testbed.**  There is neither a dot nor a slash in it.  It is the last piece of the node file's path
up to its first dot, if the piece is a name.  It is empty exactly if no piece is left, because the path is empty or the
root, or the last one is a leading `.` or is `..`, or is a name that begins with a dot.  To any path the label adds
itself as a name, or nothing if it is empty; what it is joined to stays in front of it. -/
theorem testbedLabel_reads (p : Path) :
    ('.' ∉ (testbedLabel p).toList ∧ '/' ∉ (testbedLabel p).toList) ∧
    (∀ name, p.lastPiece? = some name → Path.IsName name →
      ∃ rest, name = testbedLabel p ++ rest ∧ (rest = "" ∨ rest.toList.head? = some '.')) ∧
    (testbedLabel p = "" ↔
      (p.text = "" ∨ p.components = [.root] ∨ p.lastPiece? = some "." ∨ p.lastPiece? = some "..") ∨
        ∃ name, p.lastPiece? = some name ∧ Path.IsName name ∧ name.toList.head? = some '.') ∧
    ∀ base : Path, (testbedLabel p = "" ∨ Path.IsName (testbedLabel p)) ∧
      (base.child (testbedLabel p)).components =
        base.components ++ (if testbedLabel p = "" then [] else [.name (testbedLabel p)]) ∧
      ∃ added, (base.child (testbedLabel p)).text = base.text ++ added := by
  have hlabel := testbedLabel_eq_empty_or_isName p
  refine ⟨⟨dot_notMem_label p, ?slash⟩, ?reads, ?empty, fun base => ⟨hlabel, ?parts, exists_added hlabel base⟩⟩
  case slash =>
    rcases hlabel with hempty | hname
    · simp [hempty]
    · exact hname.2.2.2
  case reads =>
    intro name hpiece hname
    have htext : name.toList = name.toList.takeWhile (· != '.') ++ name.toList.dropWhile (· != '.') :=
      List.takeWhile_append_dropWhile.symm
    refine ⟨String.ofList (name.toList.dropWhile (· != '.')), ?_, ?_⟩
    · rw [label_of_lastPiece hpiece hname, ← String.ofList_append, ← htext, String.ofList_toList]
    · rw [String.ofList_eq_empty_iff, String.toList_ofList]
      cases hrest : name.toList.dropWhile (· != '.') with
      | nil => exact .inl rfl
      | cons c rest =>
        have hc := List.head?_dropWhile_not (· != '.') name.toList
        rw [hrest] at hc
        simpa using hc
  case empty =>
    cases hpiece : p.lastPiece? with
    | none =>
      have hnone : testbedLabel p = "" := label_of_not_isName fun name hname => by simp [hpiece] at hname
      have hleft := Path.lastPiece?_eq_none.mp hpiece
      simp only [hnone, true_iff]
      exact .inl (hleft.imp_right .inl)
    | some piece =>
      have hsome : ¬(p.text = "" ∨ p.components = [.root]) := fun hleft => by
        simp [Path.lastPiece?_eq_none.mpr hleft] at hpiece
      rw [not_or] at hsome
      rcases Path.isName_of_lastPiece? hpiece with hname | hdots
      · simp [label_eq_empty hpiece hname, hsome.1, hsome.2, hname, hname.2.1, hname.2.2.1]
      · have hno : ¬ Path.IsName piece := fun hname => hdots.elim hname.2.1 hname.2.2.1
        have hempty : testbedLabel p = "" := label_of_not_isName fun name heq => by
          rw [hpiece, Option.some_inj] at heq
          rwa [← heq]
        simp only [hempty, true_iff]
        exact .inl (.inr (.inr (hdots.imp (congrArg some) (congrArg some))))
  case parts =>
    rcases hlabel with hempty | hname
    · rw [hempty, if_pos rfl, Path.components_child_empty, List.append_nil]
    · rw [if_neg hname.1, Path.components_child_name hname]

/-- Of a path with slashes and dots at its end the last piece counts; a hidden file leaves no label. -/
theorem testbedLabel_reads_sample :
    (∃ rest, "utah.prod.csv" = testbedLabel ⟨".//beds/./utah.prod.csv//./"⟩ ++ rest ∧
      (rest = "" ∨ rest.toList.head? = some '.')) ∧
    testbedLabel ⟨".//beds/./utah.prod.csv//./"⟩ = "utah" ∧ testbedLabel ⟨"beds/.utah.csv"⟩ = "" ∧
    (Path.mk "/logs").child (testbedLabel ⟨"beds/.."⟩) = ⟨"/logs/"⟩ := by
  have hpiece : (Path.mk ".//beds/./utah.prod.csv//./").lastPiece? = some "utah.prod.csv" := by decide
  have hread := (testbedLabel_reads ⟨".//beds/./utah.prod.csv//./"⟩).2.1 "utah.prod.csv" hpiece (by decide)
  exact ⟨hread, by decide, by decide, by decide⟩

end Fleet
