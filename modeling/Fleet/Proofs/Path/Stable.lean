import Fleet.Proofs.Path.Normal

/-!
# Normal paths stay as they are

What was piled up for a path is read back from its normal form, and piling it up again gives the same stack
(`foldl_pile_normal`).  A normal form depends on the stack alone, so a normal path is its own normal form
(`normal_normal`), and a relative path that is joined to a normal one has the normal form that it has from the path
itself (`normal_join`).

The text of a normal path is given by its pieces between slashes (`normalPieces`): names with at most one `..`, which
comes first, behind the empty piece that an absolute path begins with.
-/

namespace Fleet

namespace Path

variable {absolute : Bool} {levels : Nat} {ground : List Component}

/-! ### the stack of a normal path -/

theorem foldl_pile_names (names : List String) (stack : List Component) :
    (names.map Component.name).foldl pile stack = (names.map Component.name).reverse ++ stack := by
  induction names generalizing stack with
  | nil => rfl
  | cons name rest ih =>
    rw [List.map_cons, List.foldl_cons, ih]
    simp [pile]

theorem Ground.foldl_pile (h : Ground absolute levels ground) : ground.reverse.foldl pile [] = ground := by
  cases h with
  | even => rfl
  | odd => rfl
  | root => rfl
  | overRoot => rfl

theorem foldl_pile_normal (p : Path) : p.normal.components.foldl pile [] = p.components.foldl pile [] := by
  obtain ⟨ground, hground, hpile⟩ := pileUp_components p
  have hagain : (pileUp p.components).foldl pile [] = p.components.foldl pile [] := by
    rw [hpile, List.foldl_append, hground.foldl_pile, foldl_pile_names, ← List.reverse_inj, ← pileUp, hpile,
      List.reverse_append, List.reverse_reverse]
  rw [components_normal]
  split
  · rename_i hempty
    rw [hempty] at hagain
    exact hagain
  · exact hagain

theorem normal_congr {p q : Path} (h : p.components.foldl pile [] = q.components.foldl pile []) :
    p.normal = q.normal := by
  rw [normal, normal, pileUp, pileUp, h]

theorem normal_normal (p : Path) : p.normal.normal = p.normal :=
  normal_congr (foldl_pile_normal p)

theorem normal_join {p : Path} (h : p.isAbsolute = false) (root : Path) :
    (root.normal.join p).normal = (root.join p).normal := by
  refine normal_congr ?_
  rw [foldl_components_join rfl h, foldl_components_join rfl h, foldl_pile_normal]

theorem normalFrom_normal (p root : Path) : p.normalFrom root.normal = p.normalFrom root := by
  cases h : p.isAbsolute with
  | true => rw [normalFrom, normalFrom, if_pos h, if_pos h]
  | false => rw [normalFrom, normalFrom, if_neg (by simp [h]), if_neg (by simp [h]), normal_join h]

/-! ### the pieces of a normal path -/

/-- What the text of a normal path is between slashes. -/
inductive NormalPieces : List String → Prop where
  | current : NormalPieces ["."]
  | root : NormalPieces ["", ""]
  | relative {first : String} {names : List String} (hfirst : first = ".." ∨ IsName first)
      (hnames : ∀ name ∈ names, IsName name) : NormalPieces (first :: names)
  | absolute {first : String} {names : List String} (hfirst : first = ".." ∨ IsName first)
      (hnames : ∀ name ∈ names, IsName name) : NormalPieces ("" :: first :: names)

theorem IsName.ne_empty {name : String} (h : IsName name) : name ≠ "" := h.1

theorem IsName.ne_current {name : String} (h : IsName name) : name ≠ "." := h.2.1

theorem IsName.ne_up {name : String} (h : IsName name) : name ≠ ".." := h.2.2.1

theorem IsName.notMem_slash {name : String} (h : IsName name) : '/' ∉ name.toList := h.2.2.2

section pieces

variable {pieces names : List String} {first : String}

theorem forall_mem_body {p : String → Prop} (hup : p "..") (hname : ∀ {name}, IsName name → p name)
    (hfirst : first = ".." ∨ IsName first) (hnames : ∀ name ∈ names, IsName name) :
    ∀ piece ∈ first :: names, p piece := by
  refine List.forall_mem_cons.mpr ⟨?_, fun name hmem => hname (hnames name hmem)⟩
  rcases hfirst with rfl | hfirst
  · exact hup
  · exact hname hfirst

theorem empty_notMem_body (hfirst : first = ".." ∨ IsName first) (hnames : ∀ name ∈ names, IsName name) :
    "" ∉ first :: names := fun hmem =>
  forall_mem_body (p := (· ≠ "")) (by decide) IsName.ne_empty hfirst hnames "" hmem rfl

theorem current_notMem_body (hfirst : first = ".." ∨ IsName first) (hnames : ∀ name ∈ names, IsName name) :
    "." ∉ first :: names := fun hmem =>
  forall_mem_body (p := (· ≠ ".")) (by decide) IsName.ne_current hfirst hnames "." hmem rfl

theorem NormalPieces.ne_nil (h : NormalPieces pieces) : pieces ≠ [] := by
  cases h <;> exact List.cons_ne_nil _ _

theorem NormalPieces.notMem_slash (h : NormalPieces pieces) : ∀ piece ∈ pieces, '/' ∉ piece.toList := by
  cases h with
  | current => decide
  | root => decide
  | relative hfirst hnames => exact forall_mem_body (by decide) IsName.notMem_slash hfirst hnames
  | absolute hfirst hnames =>
    exact List.forall_mem_cons.mpr ⟨by decide, forall_mem_body (by decide) IsName.notMem_slash hfirst hnames⟩

end pieces

/-- A path that ends in some other character than a slash. -/
def Unslashed (p : Path) : Prop := ∃ c, p.text.toList.getLast? = some c ∧ c ≠ '/'

theorem IsName.unslashed {name : String} (h : IsName name) (front : String) : Unslashed ⟨front ++ name⟩ := by
  have hne : name.toList ≠ [] := fun heq => h.1 (String.toList_eq_nil_iff.mp heq)
  refine ⟨name.toList.getLast hne, ?_, fun hslash => h.notMem_slash (hslash ▸ List.getLast_mem hne)⟩
  rw [String.toList_append, List.getLast?_append_of_ne_nil _ hne, List.getLast?_eq_getLast_of_ne_nil hne]

theorem not_isAbsolute_name {name : String} (h : IsName name) : ¬(Path.mk name).isAbsolute = true := by
  simpa [isAbsolute] using fun hhead => h.notMem_slash (List.mem_of_head? hhead)

theorem child_of_unslashed {base name : String} (hbase : Unslashed ⟨base⟩) (h : IsName name) :
    (Path.mk base).child name = ⟨base ++ "/" ++ name⟩ := by
  obtain ⟨c, hlast, hc⟩ := hbase
  rw [child, join, if_neg (not_isAbsolute_name h), if_neg (by simpa [hlast] using hc)]

theorem child_of_slashed {base name : String} (hbase : base.toList.getLast?.all (· == '/') = true) (h : IsName name) :
    (Path.mk base).child name = ⟨base ++ name⟩ := by
  rw [child, join, if_neg (not_isAbsolute_name h), if_pos hbase]

/-- Names that are joined to a path that does not end in a slash are written behind one slash each. -/
theorem foldl_child_text {base : String} {names : List String} (hbase : Unslashed ⟨base⟩)
    (h : ∀ name ∈ names, IsName name) : (names.foldl child ⟨base⟩).text = String.intercalate "/" (base :: names) := by
  induction names generalizing base with
  | nil => simp
  | cons name rest ih =>
    obtain ⟨hname, hrest⟩ := List.forall_mem_cons.mp h
    rw [List.foldl_cons, child_of_unslashed hbase hname, ih (hname.unslashed _) hrest, String.intercalate_cons_cons,
      String.intercalate_cons_append]

theorem Ground.exists_normalPieces (h : Ground absolute levels ground) {names : List String}
    (hnames : ∀ name ∈ names, IsName name) (hne : ground.reverse ++ names.map Component.name ≠ []) :
    ∃ pieces, NormalPieces pieces ∧
      (names.foldl child (ofComponents ground.reverse)).text = String.intercalate "/" pieces := by
  cases h with
  | even =>
    obtain ⟨first, rest, rfl⟩ := List.exists_cons_of_ne_nil (l := names) (by simpa using hne)
    obtain ⟨hfirst, hrest⟩ := List.forall_mem_cons.mp hnames
    refine ⟨first :: rest, .relative (.inr hfirst) hrest, ?_⟩
    have hstart : (ofComponents []).child first = ⟨first⟩ := by
      rw [ofComponents, List.foldl_nil, child_of_slashed rfl hfirst, String.empty_append]
    have hunslashed : Unslashed ⟨first⟩ := by simpa using hfirst.unslashed ""
    rw [List.reverse_nil, List.foldl_cons, hstart, foldl_child_text hunslashed hrest]
  | odd => exact ⟨".." :: names, .relative (.inl rfl) hnames, foldl_child_text ⟨'.', rfl, by decide⟩ hnames⟩
  | root =>
    cases names with
    | nil => exact ⟨_, .root, rfl⟩
    | cons first rest =>
      obtain ⟨hfirst, hrest⟩ := List.forall_mem_cons.mp hnames
      refine ⟨"" :: first :: rest, .absolute (.inr hfirst) hrest, ?_⟩
      change (rest.foldl child ((Path.mk "/").child first)).text = _
      rw [child_of_slashed rfl hfirst, foldl_child_text (hfirst.unslashed "/") hrest, String.intercalate_cons_append,
        String.intercalate_cons_cons, String.empty_append]
  | overRoot =>
    refine ⟨"" :: ".." :: names, .absolute (.inl rfl) hnames, ?_⟩
    change (names.foldl child ⟨"/" ++ ".."⟩).text = _
    rw [foldl_child_text ⟨'.', rfl, by decide⟩ hnames, String.intercalate_cons_append, String.intercalate_cons_cons,
      String.empty_append]

theorem normalPieces_normal (p : Path) : NormalPieces (Text.split '/' p.normal.text) := by
  have hsplit : ∀ {pieces : List String}, NormalPieces pieces →
      Text.split '/' (String.intercalate "/" pieces) = pieces := fun h =>
    @Text.split_intercalate '/' _ h.ne_nil h.notMem_slash
  obtain ⟨ground, hground, hpile⟩ := pileUp_components p
  rw [normal]
  split
  · exact .current
  · rename_i hne
    rw [hpile] at hne
    obtain ⟨pieces, hpieces, htext⟩ := hground.exists_normalPieces (fun name hname => isName_of_mem_place hname) hne
    rw [hpile, ofComponents_append, htext, hsplit hpieces]
    exact hpieces

/-! ### tidy texts -/

/-- No piece is `.` but in the text `.`, no name is followed by `..`, no slash is repeated, and the text does not end in
a slash but for the root. -/
structure Tidy (text : String) : Prop where
  nonempty : text ≠ ""
  current : "." ∈ Text.split '/' text → text = "."
  up : ∀ before name after, Text.split '/' text = before ++ name :: ".." :: after → ¬ IsName name
  repeated : ∀ before after, text ≠ before ++ "//" ++ after
  trailing : ∀ before, text = before ++ "/" → before = ""

section pieces

variable {pieces before after names : List String} {first : String}

theorem NormalPieces.ne_empty (h : NormalPieces pieces) : pieces ≠ [""] := by
  cases h with
  | current => decide
  | root => decide
  | relative hfirst hnames =>
    intro hpieces
    exact empty_notMem_body hfirst hnames (hpieces ▸ List.mem_cons_self)
  | absolute => simp

theorem NormalPieces.of_current_mem (h : NormalPieces pieces) (hmem : "." ∈ pieces) : pieces = ["."] := by
  cases h with
  | current => rfl
  | root => exact absurd hmem (by decide)
  | relative hfirst hnames => exact absurd hmem (current_notMem_body hfirst hnames)
  | absolute hfirst hnames =>
    exact absurd hmem (List.not_mem_cons_of_ne_of_not_mem (by decide) (current_notMem_body hfirst hnames))

theorem NormalPieces.of_empty (h : NormalPieces pieces) (hpieces : pieces = before ++ "" :: after) :
    before = [] ∨ before = [""] ∧ after = [] := by
  have hmem : "" ∈ before ++ "" :: after := List.mem_append_right _ List.mem_cons_self
  cases h with
  | current =>
    rw [← hpieces] at hmem
    exact absurd hmem (by decide)
  | root =>
    cases before with
    | nil => exact .inl rfl
    | cons _ before =>
      obtain ⟨rfl, hlast⟩ := List.cons.inj hpieces
      obtain ⟨rfl, hafter⟩ := List.append_eq_singleton_iff.mp hlast.symm |>.resolve_right (by simp)
      exact .inr ⟨rfl, (List.cons.inj hafter).2⟩
  | relative hfirst hnames =>
    rw [← hpieces] at hmem
    exact absurd hmem (empty_notMem_body hfirst hnames)
  | absolute hfirst hnames =>
    cases before with
    | nil => exact .inl rfl
    | cons _ before =>
      have hbody := empty_notMem_body hfirst hnames
      rw [(List.cons.inj hpieces).2] at hbody
      exact absurd (List.mem_append_right _ List.mem_cons_self) hbody

theorem not_up_of_body {name : String} (hnames : ∀ name ∈ names, IsName name) :
    first :: names ≠ before ++ name :: ".." :: after := by
  intro hpieces
  refine (hnames ".." ?_).ne_up rfl
  cases before with
  | nil => simp [(List.cons.inj hpieces).2]
  | cons _ before => simp [(List.cons.inj hpieces).2]

theorem NormalPieces.not_isName {name : String} (h : NormalPieces pieces)
    (hpieces : pieces = before ++ name :: ".." :: after) : ¬ IsName name := by
  have hmem : ".." ∈ before ++ name :: ".." :: after := by simp
  cases h with
  | current =>
    rw [← hpieces] at hmem
    exact absurd hmem (by decide)
  | root =>
    rw [← hpieces] at hmem
    exact absurd hmem (by decide)
  | relative _ hnames => exact absurd hpieces (not_up_of_body hnames)
  | absolute _ hnames =>
    cases before with
    | nil =>
      obtain ⟨rfl, -⟩ := List.cons.inj hpieces
      exact fun h => h.ne_empty rfl
    | cons _ before => exact absurd (List.cons.inj hpieces).2 (not_up_of_body hnames)

end pieces

theorem split_slash (before after : String) :
    Text.split '/' (before ++ "/" ++ after) = Text.split '/' before ++ Text.split '/' after :=
  Text.split_append '/' before after

theorem tidy_of_normalPieces {text : String} (h : NormalPieces (Text.split '/' text)) : Tidy text where
  nonempty := by
    rintro rfl
    exact h.ne_empty rfl
  current hmem := Text.eq_of_split_singleton (h.of_current_mem hmem)
  up before name after := h.not_isName
  repeated before after htext := by
    have hsplit : Text.split '/' text = Text.split '/' before ++ "" :: Text.split '/' after := by
      have htwice : "//" = "/" ++ "" ++ "/" := rfl
      rw [htext, htwice, ← String.append_assoc, ← String.append_assoc, split_slash, split_slash,
        List.append_assoc]
      rfl
    rcases h.of_empty hsplit with hbefore | ⟨-, hafter⟩
    · exact Text.split_ne_nil _ before hbefore
    · exact Text.split_ne_nil _ after hafter
  trailing before htext := by
    have hsplit : Text.split '/' text = Text.split '/' before ++ "" :: [] := by
      rw [htext, ← String.append_empty (s := before ++ "/"), split_slash]
      rfl
    rcases h.of_empty hsplit with hbefore | ⟨hbefore, -⟩
    · exact absurd hbefore (Text.split_ne_nil _ before)
    · exact Text.eq_of_split_singleton hbefore

end Path

namespace Transfer

/-- **Normal paths are stable.**  Whatever the path, its normal form has a tidy text, is absolute if the path is, and is
its own normal form.  A relative path that is joined to the normal form of another has the normal form that it has when
it is joined to the other itself.  So the command that sends files names the lists that are found from the source as it
is configured, and it is the same command for a source that is normal already. -/
theorem normal_stable (p source f : Path) (files : SyncSection) (access : Access) (hostname : String) :
    Path.Tidy p.normal.text ∧ p.normal.isAbsolute = p.isAbsolute ∧ p.normal.normal = p.normal ∧
    (f.isAbsolute = false → (source.normal.join f).normal = (source.join f).normal) ∧
    sendCommand files access hostname =
      "rsync -r -e '" ++ access.ssh ++ "' --exclude-from=" ++ (files.excludeFile.normalFrom files.source).text ++
        " --files-from=" ++ (files.includeFile.normalFrom files.source).text ++ " --progress -uva " ++
        files.source.normal.text ++ "/ " ++ access.user ++ "@" ++ hostname ++ ":" ++ files.destination ∧
    sendCommand { files with source := files.source.normal } access hostname = sendCommand files access hostname := by
  refine ⟨Path.tidy_of_normalPieces p.normalPieces_normal, p.isAbsolute_normal, p.normal_normal,
    fun hrelative => Path.normal_join hrelative source, ?_, ?_⟩
  · unfold sendCommand
    dsimp only
    rw [Path.normalFrom_normal, Path.normalFrom_normal]
  · unfold sendCommand
    dsimp only
    rw [Path.normal_normal]

theorem normal_stable_sample :
    (Path.mk ".././x/..//../y/./").normal = ⟨"y"⟩ ∧ Path.Tidy "y" ∧ (Path.mk "y").normal = ⟨"y"⟩ ∧
    (Path.mk "./lists/../../in").isAbsolute = false ∧
    ((Path.mk "src//./").normal.join ⟨"./lists/../../in"⟩).normal = ⟨"in"⟩ ∧
    sendCommand ⟨⟨"src//./"⟩, "/d", ⟨"./lists/../../in"⟩, ⟨"/etc//../out"⟩⟩ ⟨"ssh", "ann"⟩ "a" =
      "rsync -r -e 'ssh' --exclude-from=/out --files-from=in --progress -uva src/ ann@a:/d" ∧
    sendCommand ⟨⟨"src"⟩, "/d", ⟨"./lists/../../in"⟩, ⟨"/etc//../out"⟩⟩ ⟨"ssh", "ann"⟩ "a" =
      "rsync -r -e 'ssh' --exclude-from=/out --files-from=in --progress -uva src/ ann@a:/d" := by
  have hnormal : (Path.mk ".././x/..//../y/./").normal = ⟨"y"⟩ := by decide
  have hsource : (Path.mk "src//./").normal = ⟨"src"⟩ := by decide
  have hrelative : (Path.mk "./lists/../../in").isAbsolute = false := by decide
  have hin : ((Path.mk "src//./").join ⟨"./lists/../../in"⟩).normal = ⟨"in"⟩ := by decide
  obtain ⟨htidy, -, hagain, hjoin, hcommand, hsame⟩ := normal_stable ⟨".././x/..//../y/./"⟩ ⟨"src//./"⟩
    ⟨"./lists/../../in"⟩ ⟨⟨"src//./"⟩, "/d", ⟨"./lists/../../in"⟩, ⟨"/etc//../out"⟩⟩ ⟨"ssh", "ann"⟩ "a"
  rw [hnormal] at htidy hagain
  refine ⟨hnormal, htidy, hagain, hrelative, (hjoin hrelative).trans hin, ?_, ?_⟩
  · exact hcommand.trans (by decide)
  · rw [hsource] at hsame
    exact hsame.trans (hcommand.trans (by decide))

end Transfer

end Fleet
