import Fleet.FileTree.Walk
import Fleet.Proofs.FileTree

/-!
# Where paths lead

Where a path leads depends on the directories of a tree alone, and a path still leads there when directories are added
(`find_mono`).  A path that ends in a name leads into a directory (`parent_of_find`).  Here is what making a directory
and writing a file do if they succeed: the one adds a directory, and the other changes the one file.
-/

namespace Fleet

/-- Every directory of a tree is one of another tree, too. -/
def FileTree.KeepsFolders (t t' : FileTree) : Prop := ∀ l, t.isDirectory l = true → t'.isDirectory l = true

theorem FileTree.Gains.keepsFolders {t t' : FileTree} (h : Gains t t') : KeepsFolders t t' := fun _ => h.isDirectory

namespace Directory

variable {d d' : Directory} {p : Path} {t t' : FileTree} {l : Location} {name : String}

/-! ### walking -/

theorem step_eq_ok {isLast : Bool} {next : Location} (h : step t l name isLast = .ok next) :
    t.isDirectory l = true ∧
      (name = "." ∧ next = l ∨ name = ".." ∧ next = l.dropLast ∨
        (name ≠ "." ∧ name ≠ "..") ∧ name.utf8ByteSize ≤ maxName ∧
          (isLast = true ∨ t.at? (l ++ [name]) ≠ none) ∧ next = l ++ [name]) := by
  unfold step at h
  split at h
  · cases h
  · rename_i hfolder
    refine ⟨by simpa using hfolder, ?_⟩
    split at h
    · rename_i hdot
      exact .inl ⟨hdot, (Except.ok.inj h).symm⟩
    · rename_i hdot
      split at h
      · rename_i hup
        exact .inr (.inl ⟨hup, (Except.ok.inj h).symm⟩)
      · rename_i hup
        split at h
        · cases h
        · rename_i hlength
          split at h
          · cases h
          · rename_i hthere
            refine .inr (.inr ⟨⟨hdot, hup⟩, by omega, ?_, (Except.ok.inj h).symm⟩)
            cases isLast <;> simp_all

/-- A step that succeeds does so in a tree with more directories, unless it is on the way to something else. -/
theorem step_mono (h : t.KeepsFolders t') {isLast : Bool} {next : Location} (hstep : step t l name isLast = .ok next)
    (hnext : isLast = true ∨ t.isDirectory next = true) : step t' l name isLast = .ok next := by
  obtain ⟨hfolder, hcases⟩ := step_eq_ok hstep
  have hfolder' := h l hfolder
  rcases hcases with ⟨rfl, rfl⟩ | ⟨rfl, rfl⟩ | ⟨⟨hdot, hup⟩, hlength, -, rfl⟩
  · simp [step, hfolder']
  · simp [step, hfolder']
  · have hthere : ¬(!isLast ∧ (t'.at? (l ++ [name])).isNone) := by
      rintro ⟨hlast, hnone⟩
      rcases hnext with rfl | hnext
      · cases hlast
      · have hsome := h _ hnext
        rw [FileTree.isDirectory, Option.isNone_iff_eq_none.mp hnone] at hsome
        cases hsome
    simp only [step, hfolder', hdot, hup, if_false, Bool.not_true, Bool.false_eq_true]
    rw [if_neg (by omega), if_neg hthere]

theorem walk_cons_eq_ok {names : List String} {target : Location} (h : walk t l (name :: names) = .ok target) :
    ∃ next, step t l name names.isEmpty = .ok next ∧ walk t next names = .ok target := by
  rw [walk] at h
  split at h
  · rename_i next hstep
    exact ⟨next, hstep, h⟩
  · cases h

theorem walk_mono (h : t.KeepsFolders t') {names : List String} {target : Location} (hwalk : walk t l names = .ok target) :
    walk t' l names = .ok target := by
  induction names generalizing l with
  | nil => exact hwalk
  | cons name rest ih =>
    obtain ⟨next, hstep, hrest⟩ := walk_cons_eq_ok hwalk
    have hnext : rest.isEmpty = true ∨ t.isDirectory next = true := by
      cases rest with
      | nil => exact .inl rfl
      | cons other rest =>
        obtain ⟨_, hother, -⟩ := walk_cons_eq_ok hrest
        exact .inr (step_eq_ok hother).1
    rw [walk, step_mono h hstep hnext]
    exact ih hrest

theorem parent_of_walk {names : List String} {target : Location} (hwalk : walk t l names = .ok target)
    (hlast : names.getLast? = some name) (hdot : name ≠ "." ∧ name ≠ "..") :
    ∃ parent, target = parent ++ [name] ∧ t.isDirectory parent = true := by
  induction names generalizing l with
  | nil => cases hlast
  | cons first rest ih =>
    obtain ⟨next, hstep, hrest⟩ := walk_cons_eq_ok hwalk
    cases rest with
    | nil =>
      obtain rfl : first = name := by simpa using hlast
      obtain rfl : next = target := Except.ok.inj hrest
      obtain ⟨hfolder, hcases⟩ := step_eq_ok hstep
      rcases hcases with ⟨heq, -⟩ | ⟨heq, -⟩ | ⟨-, -, -, heq⟩
      · exact absurd heq hdot.1
      · exact absurd heq hdot.2
      · exact ⟨l, heq, hfolder⟩
    | cons other rest => exact ih hrest (by simpa using hlast)

/-! ### finding -/

def namesOf (p : Path) : List String := ((p.text.toList.splitOn '/').filter (· ≠ [])).map String.ofList

def base (d : Directory) (p : Path) : Location := if p.isAbsolute then [] else d.location

/-- The fault of a path that is not walked at all. -/
def textFault? (p : Path) : Option SystemFault :=
  if '\x00' ∈ p.text.toList then some .nulInName
  else if p.text = "" then some .notFound
  else if maxPath < p.text.utf8ByteSize then some .nameTooLong
  else none

def targetAt (p : Path) (location : Location) : Target :=
  { location
    isNamed := (namesOf p).getLast?.any fun name => name ≠ "." ∧ name ≠ ".."
    endsInSlash := p.text.toList.getLast? = some '/' }

theorem find_eq (d : Directory) (p : Path) :
    d.find p =
      match textFault? p with
      | some fault => .error fault
      | none => (walk d.tree (d.base p) (namesOf p)).map (targetAt p) := by
  unfold find textFault?
  simp only
  split
  · rfl
  · split
    · rfl
    · split
      · rfl
      · rfl

theorem find_eq_ok {target : Target} :
    d.find p = .ok target ↔
      textFault? p = none ∧ ∃ location, walk d.tree (d.base p) (namesOf p) = .ok location ∧ targetAt p location = target := by
  rw [find_eq]
  cases htext : textFault? p with
  | some fault => simp
  | none =>
    cases hwalk : walk d.tree (d.base p) (namesOf p) with
    | error fault => simp [Except.map]
    | ok location => simp [Except.map]

theorem find_mono (h : d.tree.KeepsFolders t') {target : Target} (hfind : d.find p = .ok target) :
    { d with tree := t' }.find p = .ok target := by
  obtain ⟨htext, location, hwalk, htarget⟩ := find_eq_ok.mp hfind
  exact find_eq_ok.mpr ⟨htext, location, walk_mono h hwalk, htarget⟩

theorem parent_of_find {target : Target} (hfind : d.find p = .ok target) (hnamed : target.isNamed = true) :
    ∃ parent name, target.location = parent ++ [name] ∧ d.tree.isDirectory parent = true := by
  obtain ⟨-, location, hwalk, rfl⟩ := find_eq_ok.mp hfind
  cases hlast : (namesOf p).getLast? with
  | none => simp [targetAt, hlast] at hnamed
  | some name =>
    obtain ⟨parent, hparent, hfolder⟩ := parent_of_walk hwalk hlast (by simpa [targetAt, hlast] using hnamed)
    exact ⟨parent, name, hparent, hfolder⟩

theorem isDirectory_iff :
    d.isDirectory p = true ↔ ∃ target, d.find p = .ok target ∧ d.tree.isDirectory target.location = true := by
  rw [isDirectory, node]
  cases hfind : d.find p with
  | error fault => simp [bind, Except.bind]
  | ok target =>
    cases hnode : d.tree.at? target.location with
    | none => simp [bind, Except.bind, hnode, FileTree.isDirectory]
    | some node =>
      cases hfolder : node.isDirectory <;> cases hslash : target.endsInSlash <;>
        simp [bind, Except.bind, hnode, FileTree.isDirectory, hfolder, hslash]

theorem isDirectory_mono (h : d.tree.KeepsFolders t') (hfolder : d.isDirectory p = true) :
    { d with tree := t' }.isDirectory p = true := by
  obtain ⟨target, hfind, htarget⟩ := isDirectory_iff.mp hfolder
  exact isDirectory_iff.mpr ⟨target, find_mono h hfind, h _ htarget⟩

/-! ### making directories -/

theorem makeDirectory_eq_ok (h : d.makeDirectory p = .ok d') :
    ∃ target parent name, d.find p = .ok target ∧ target.location = parent ++ [name] ∧
      d.tree.isDirectory parent = true ∧ d.tree.item? (parent ++ [name]) = none ∧
      d' = { d with tree := d.tree.put (parent ++ [name]) (.directory []) } := by
  unfold makeDirectory at h
  cases hfind : d.find p with
  | error fault =>
    rw [hfind] at h
    cases h
  | ok target =>
    simp only [hfind, bind, Except.bind] at h
    split at h
    · cases h
    · rename_i hfree
      rw [not_or] at hfree
      obtain ⟨parent, name, hlocation, hfolder⟩ := parent_of_find hfind (by simpa using hfree.1)
      have hnone : d.tree.item? (parent ++ [name]) = none := by
        rw [FileTree.item?_eq_none, ← hlocation]
        simpa using hfree.2
      rw [hlocation] at h
      exact ⟨target, parent, name, rfl, hlocation, hfolder, hnone, (Except.ok.inj h).symm⟩

theorem gains_of_makeDirectory (h : d.makeDirectory p = .ok d') :
    d'.location = d.location ∧ d.tree.Gains d'.tree ∧ d'.isDirectory p = true := by
  obtain ⟨target, parent, name, hfind, hlocation, hfolder, hnone, rfl⟩ := makeDirectory_eq_ok h
  have hgains := FileTree.Gains.put hfolder hnone
  refine ⟨rfl, hgains, isDirectory_iff.mpr ⟨target, find_mono hgains.keepsFolders hfind, ?_⟩⟩
  rw [hlocation, FileTree.isDirectory_iff]
  exact FileTree.item?_put_self hfolder name (.directory [])

/-! ### writing files -/

/-- A path that a file can be written at leads to a location in a directory, at which no directory is. -/
theorem writable_eq_ok :
    d.writable p = .ok l ↔
      ∃ target, d.find p = .ok target ∧ target.location = l ∧ target.endsInSlash = false ∧ target.isNamed = true ∧
        d.tree.isDirectory l = false := by
  unfold writable
  cases hfind : d.find p with
  | error fault => simp [bind, Except.bind]
  | ok target =>
    simp only [bind, Except.bind]
    constructor
    · intro h
      split at h
      · cases h
      · rename_i hfree
        rw [not_or, not_or] at hfree
        obtain ⟨hslash, hnamed, hfolder⟩ := hfree
        obtain rfl := Except.ok.inj h
        exact ⟨target, rfl, rfl, by simpa using hslash, by simpa using hnamed, by simpa using hfolder⟩
    · rintro ⟨_, hsame, rfl, hslash, hnamed, hfolder⟩
      obtain rfl := Except.ok.inj hsame
      rw [if_neg (by simp [hslash, hnamed, hfolder])]

theorem holding_eq (bytes : Text.Bytes) (old : Option FileNode) :
    ∃ isProgram, FileNode.holding bytes old = .file bytes isProgram := by
  unfold FileNode.holding
  split
  · exact ⟨_, rfl⟩
  · exact ⟨false, rfl⟩

theorem item?_put_file (hl : t.isDirectory l = true) (hname : t.isDirectory (l ++ [name]) = false) (bytes : Text.Bytes)
    (isProgram : Bool) {l' : Location} (hne : l' ≠ l ++ [name]) :
    (t.put (l ++ [name]) (.file bytes isProgram)).item? l' = t.item? l' := by
  rw [FileTree.item?_put hl]
  by_cases hbelow : l ++ [name] <+: l'
  · obtain ⟨rest, rfl⟩ := hbelow
    rw [if_pos (List.prefix_append _ _), List.drop_left]
    cases rest with
    | nil => exact absurd (List.append_nil _) hne
    | cons key rest =>
      have hnone : t.at? (l ++ [name] ++ key :: rest) = none := by
        by_contra hsome
        rw [FileTree.isDirectory_of_append hsome] at hname
        cases hname
      rw [FileTree.item?_eq_none.mpr hnone]
      rfl
  · rw [if_neg hbelow]

/-- **What writing a file does.**  A device takes the bytes and keeps none.  Anything else is a file with these bytes
afterwards, and nothing else has changed. -/
theorem write_eq_ok {bytes : Text.Bytes} (h : d.write p bytes = .ok d') :
    ∃ log, d.writable p = .ok log ∧ d'.location = d.location ∧
      ((∃ kind, d.tree.at? log = some (.device kind) ∧ d' = d) ∨
      (∀ kind, d.tree.at? log ≠ some (.device kind)) ∧ (∃ isProgram, d'.tree.at? log = some (.file bytes isProgram)) ∧
        ∀ l, l ≠ log → d'.tree.item? l = d.tree.item? l) := by
  unfold write at h
  cases hwritable : d.writable p with
  | error fault =>
    rw [hwritable] at h
    cases h
  | ok log =>
    simp only [hwritable, bind, Except.bind] at h
    obtain ⟨target, hfind, rfl, -, hnamed, hfile⟩ := writable_eq_ok.mp hwritable
    obtain ⟨parent, name, hlocation, hparent⟩ := parent_of_find hfind hnamed
    refine ⟨_, rfl, ?_⟩
    rw [hlocation] at h hfile ⊢
    -- what is there may be a full device, another device, or anything else, which gives way to the file
    split at h
    · rename_i hdevice
      split at h
      · obtain rfl := Except.ok.inj h
        exact ⟨rfl, .inl ⟨_, hdevice, rfl⟩⟩
      · cases h
    · rename_i kind hdevice
      obtain rfl := Except.ok.inj h
      exact ⟨rfl, .inl ⟨_, hdevice, rfl⟩⟩
    · rename_i hdevice
      obtain rfl := Except.ok.inj h
      obtain ⟨isProgram, hnode⟩ := holding_eq bytes (d.tree.at? (parent ++ [name]))
      refine ⟨rfl, .inr ⟨fun kind => hdevice kind, ⟨isProgram, ?_⟩, fun l hne => ?_⟩⟩
      · rw [hnode, ← FileTree.at?_eq_of_item? rfl]
        exact FileTree.item?_put_self hparent name _
      · rw [hnode]
        exact item?_put_file hparent hfile bytes isProgram hne

theorem keepsFolders_of_write {bytes : Text.Bytes} (h : d.write p bytes = .ok d') :
    d.tree.KeepsFolders d'.tree := by
  obtain ⟨log, hwritable, -, hdevice | ⟨-, -, hrest⟩⟩ := write_eq_ok h
  · obtain ⟨kind, -, rfl⟩ := hdevice
    exact fun l hl => hl
  · obtain ⟨-, -, -, -, -, hfile⟩ := writable_eq_ok.mp hwritable
    intro l hl
    have hne : l ≠ log := by
      rintro rfl
      rw [hl] at hfile
      cases hfile
    rw [FileTree.isDirectory_iff] at hl ⊢
    rw [hrest l hne, hl]

theorem writable_of_write {bytes : Text.Bytes} (h : d.write p bytes = .ok d') (hwritable : d.writable p = .ok l) :
    d'.writable p = .ok l := by
  have hkept := keepsFolders_of_write h
  obtain ⟨log, hlog, hlocation, hcases⟩ := write_eq_ok h
  obtain rfl : log = l := Except.ok.inj (hlog.symm.trans hwritable)
  obtain ⟨target, hfind, htarget, hslash, hnamed, hfile⟩ := writable_eq_ok.mp hwritable
  have hd : d' = { d with tree := d'.tree } := by
    cases d'
    cases hlocation
    rfl
  refine writable_eq_ok.mpr ⟨target, ?_, htarget, hslash, hnamed, ?_⟩
  · rw [hd]
    exact find_mono hkept hfind
  · rcases hcases with ⟨kind, -, rfl⟩ | ⟨-, ⟨isProgram, hnode⟩, -⟩
    · exact hfile
    · rw [FileTree.isDirectory, hnode]
      rfl

end Directory

end Fleet
