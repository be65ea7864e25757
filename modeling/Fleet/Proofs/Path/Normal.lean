import Fleet.Proofs.Path
import Fleet.Transfer

/-!
# Where normal paths point

A path points somewhere by its components: from the root or from where one starts, some levels up and then down along
some names.  Normal paths are put together from a stack, and the stack is no full account of the way: a `..` that was
put on it is taken off by the next one.  So of the levels above the start every two cancel out
(`place_normal`), and a normal path points where the path does exactly if the path goes at most one level above its
start (`command_places`).  There is nothing above the root, so absolute paths are never changed in this way.
-/

namespace Fleet

namespace Path

/-! ### places -/

/-- Where a path points: from the root or from a start, so many levels up and then along some names. -/
@[ext] structure Place where
  absolute : Bool
  levels : Nat
  names : List String
  deriving DecidableEq

namespace Place

def start : Place := ⟨false, 0, []⟩

/-- Where a component leads to.  Without a name to take back, `..` goes up one level, or nowhere from the root. -/
def go (w : Place) : Component → Place
  | .root => ⟨true, 0, []⟩
  | .current => w
  | .name text => { w with names := w.names ++ [text] }
  | .up =>
    if w.names ≠ [] then { w with names := w.names.dropLast }
    else if w.absolute then w
    else { w with levels := w.levels + 1 }

/-- The place, every two levels above the start cancelled out. -/
def cancelled (w : Place) : Place := { w with levels := w.levels % 2 }

theorem cancelled_eq_iff {w : Place} : w.cancelled = w ↔ w.levels ≤ 1 := by
  have hlevels : w.cancelled = w ↔ w.levels % 2 = w.levels := by
    constructor
    · intro h
      exact congrArg levels h
    · intro h
      exact Place.ext rfl h rfl
  rw [hlevels]
  omega

theorem cancelled_go (w : Place) (c : Component) : (w.cancelled.go c).cancelled = (w.go c).cancelled := by
  cases c with
  | root => rfl
  | current => simp [go, cancelled]
  | name text => simp [go, cancelled]
  | up =>
    by_cases hnames : w.names = []
    · cases habsolute : w.absolute with
      | true => simp [go, cancelled, hnames, habsolute]
      | false =>
        have hlevels : (w.levels % 2 + 1) % 2 = (w.levels + 1) % 2 := by omega
        simp [go, cancelled, hnames, habsolute, hlevels]
    · simp [go, cancelled, hnames]

theorem cancelled_foldl_go (parts : List Component) (w : Place) :
    (parts.foldl go w.cancelled).cancelled = (parts.foldl go w).cancelled := by
  induction parts generalizing w with
  | nil => simp [cancelled]
  | cons c rest ih => rw [List.foldl_cons, List.foldl_cons, ← ih, cancelled_go, ih]

theorem foldl_go_names (names : List String) (w : Place) :
    (names.map Component.name).foldl go w = { w with names := w.names ++ names } := by
  induction names generalizing w with
  | nil => simp
  | cons name rest ih =>
    rw [List.map_cons, List.foldl_cons, ih]
    simp [go]

theorem absolute_foldl_go {parts : List Component} (h : .root ∉ parts) (w : Place) :
    (parts.foldl go w).absolute = w.absolute := by
  induction parts generalizing w with
  | nil => rfl
  | cons c rest ih =>
    rw [List.mem_cons, not_or] at h
    obtain ⟨hc, hrest⟩ := h
    rw [List.foldl_cons, ih hrest]
    cases c with
    | root => exact absurd rfl hc
    | current => rfl
    | name text => rfl
    | up =>
      simp only [go]
      split
      · rfl
      · split <;> rfl

theorem mem_names_foldl_go {parts : List Component} {w : Place} {name : String}
    (h : name ∈ (parts.foldl go w).names) : name ∈ w.names ∨ .name name ∈ parts := by
  induction parts generalizing w with
  | nil => exact .inl h
  | cons c rest ih =>
    rcases ih h with hstep | hrest
    · cases c with
      | root => cases hstep
      | current => exact .inl hstep
      | name text =>
        rcases List.mem_append.mp hstep with hold | hnew
        · exact .inl hold
        · rw [List.mem_singleton.mp hnew]
          exact .inr List.mem_cons_self
      | up =>
        simp only [go] at hstep
        split at hstep
        · exact .inl (List.dropLast_subset _ hstep)
        · split at hstep
          · exact .inl hstep
          · exact .inl hstep
    · exact .inr (List.mem_cons_of_mem _ hrest)

end Place

def place (p : Path) : Place := p.components.foldl Place.go .start

theorem root_notMem_bodyOf (s : List Char) : .root ∉ bodyOf s := by
  intro h
  obtain ⟨piece, -, hpiece⟩ := List.mem_filterMap.mp h
  unfold Component.ofPiece? at hpiece
  split at hpiece <;> cases hpiece

theorem absolute_place (p : Path) : p.place.absolute = p.isAbsolute := by
  have hbody := root_notMem_bodyOf p.text.toList
  rw [place, components, componentsOf]
  by_cases hroot : p.text.toList.head? = some '/'
  · rw [if_pos hroot, List.foldl_cons]
    have habsolute : p.isAbsolute = true := by simpa [isAbsolute] using hroot
    rw [habsolute]
    exact Place.absolute_foldl_go hbody _
  · rw [if_neg hroot]
    have hrelative : p.isAbsolute = false := by simpa [isAbsolute] using hroot
    rw [hrelative]
    split
    · exact Place.absolute_foldl_go hbody _
    · exact Place.absolute_foldl_go hbody _

theorem isName_of_mem_place {p : Path} {name : String} (h : name ∈ p.place.names) : IsName name := by
  rcases Place.mem_names_foldl_go h with hnone | hpart
  · cases hnone
  · exact isName_of_mem hpart

/-! ### the stack -/

/-- What is at the bottom of the stack: of the levels above the start only whether they are odd, and on the root
perhaps a `..` that leads nowhere. -/
inductive Ground : Bool → Nat → List Component → Prop where
  | even {levels : Nat} (h : levels % 2 = 0) : Ground false levels []
  | odd {levels : Nat} (h : levels % 2 = 1) : Ground false levels [.up]
  | root : Ground true 0 [.root]
  | overRoot : Ground true 0 [.up, .root]

/-- A stack stands for a place: the names of the place are piled up on the ground. -/
def Piled (w : Place) (stack : List Component) : Prop :=
  ∃ ground, Ground w.absolute w.levels ground ∧ stack = (w.names.map .name).reverse ++ ground

theorem Ground.levels_eq_zero {levels : Nat} {ground : List Component} (h : Ground true levels ground) :
    levels = 0 := by
  cases h with
  | root => rfl
  | overRoot => rfl

theorem Piled.go {w : Place} {stack : List Component} (h : Piled w stack) (c : Component) :
    Piled (w.go c) (pile stack c) := by
  obtain ⟨ground, hground, rfl⟩ := h
  cases c with
  | root => exact ⟨[.root], .root, rfl⟩
  | current => exact ⟨ground, hground, rfl⟩
  | name text => exact ⟨ground, hground, by simp [Place.go, pile]⟩
  | up =>
    rcases List.eq_nil_or_concat w.names with hnames | ⟨above, last, hnames⟩
    · -- no name is left, so the step is one on the ground
      obtain ⟨absolute, levels, names⟩ := w
      subst hnames
      cases hground with
      | even heven =>
        have hodd : (levels + 1) % 2 = 1 := by
          rw [Nat.add_mod, heven]
        exact ⟨[.up], .odd hodd, rfl⟩
      | odd hodd =>
        have heven : (levels + 1) % 2 = 0 := by
          rw [Nat.add_mod, hodd]
        exact ⟨[], .even heven, rfl⟩
      | root => exact ⟨[.up, .root], .overRoot, rfl⟩
      | overRoot => exact ⟨[.root], .root, rfl⟩
    · rw [List.concat_eq_append] at hnames
      have hgo : w.go .up = { w with names := above } := by simp [Place.go, hnames]
      rw [hgo]
      exact ⟨ground, hground, by simp [hnames, pile]⟩

theorem piled_foldl {w : Place} {stack : List Component} (h : Piled w stack) (parts : List Component) :
    Piled (parts.foldl Place.go w) (parts.foldl pile stack) := by
  induction parts generalizing w stack with
  | nil => exact h
  | cons c rest ih => exact ih (h.go c)

theorem pileUp_components (p : Path) : ∃ ground, Ground p.place.absolute p.place.levels ground ∧
    pileUp p.components = ground.reverse ++ p.place.names.map .name := by
  have hstart : Piled .start [] := ⟨[], .even rfl, rfl⟩
  obtain ⟨ground, hground, hstack⟩ := piled_foldl hstart p.components
  refine ⟨ground, hground, ?_⟩
  rw [pileUp, hstack, List.reverse_append, List.reverse_reverse]
  rfl

theorem levels_place_of_isAbsolute {p : Path} (h : p.isAbsolute = true) : p.place.levels = 0 := by
  obtain ⟨ground, hground, -⟩ := pileUp_components p
  rw [absolute_place, h] at hground
  exact hground.levels_eq_zero

/-! ### normal paths -/

theorem ofComponents_append (parts : List Component) (names : List String) :
    ofComponents (parts ++ names.map Component.name) = names.foldl child (ofComponents parts) := by
  rw [ofComponents, List.foldl_append, List.foldl_map]
  rfl

theorem Ground.components {absolute : Bool} {levels : Nat} {ground : List Component}
    (h : Ground absolute levels ground) : (ofComponents ground.reverse).components = ground.reverse := by
  cases h with
  | even => rfl
  | odd => rfl
  | root => rfl
  | overRoot => rfl

theorem Ground.foldl_go {absolute : Bool} {levels : Nat} {ground : List Component}
    (h : Ground absolute levels ground) :
    ground.reverse.foldl Place.go .start = (Place.mk absolute levels []).cancelled := by
  cases h with
  | even heven => simp [Place.cancelled, Place.start, heven]
  | odd hodd => simp [Place.go, Place.cancelled, Place.start, hodd]
  | root => rfl
  | overRoot => rfl

theorem components_normal (p : Path) :
    p.normal.components = if pileUp p.components = [] then [.current] else pileUp p.components := by
  obtain ⟨ground, hground, hpile⟩ := pileUp_components p
  have hnames : ∀ name ∈ p.place.names, name = "" ∨ IsName name := fun name hname => .inr (isName_of_mem_place hname)
  have hfilter : p.place.names.filter (· ≠ "") = p.place.names :=
    List.filter_eq_self.mpr fun name hname => by simpa using (isName_of_mem_place hname).1
  rw [normal]
  split
  · -- the empty stack is written as the start
    rename_i hempty
    rw [if_pos hempty]
    rfl
  · rename_i hstack
    rw [if_neg hstack, hpile, ofComponents_append, components_foldl_child hnames, hground.components, hfilter]

/-- **A normal path points where its path does, but every two levels above the start cancel out.** -/
theorem place_normal (p : Path) : p.normal.place = p.place.cancelled := by
  obtain ⟨ground, hground, hpile⟩ := pileUp_components p
  have hplace : (pileUp p.components).foldl Place.go .start = p.place.cancelled := by
    rw [hpile, List.foldl_append, hground.foldl_go, Place.foldl_go_names]
    rfl
  rw [place, components_normal]
  split
  · rename_i hempty
    rw [hempty] at hplace
    exact hplace
  · exact hplace

theorem isAbsolute_normal (p : Path) : p.normal.isAbsolute = p.isAbsolute := by
  rw [← absolute_place, place_normal, ← absolute_place]
  rfl

/-! ### joined paths -/

/-- A relative path that is joined to another is gone through after it, by steps that a leading `.` is none of. -/
theorem foldl_components_join {β : Type} {step : β → Component → β} {b : β} (hcurrent : step b .current = b) {p : Path}
    (h : p.isAbsolute = false) (root : Path) :
    (root.join p).components.foldl step b = (bodyOf p.text.toList).foldl step (root.components.foldl step b) := by
  have hhead : p.text.toList.head? ≠ some '/' := by simpa [isAbsolute] using h
  by_cases hroot : root.text = ""
  · have hempty : root.components = [] := by
      rw [components, hroot]
      rfl
    have hjoin : root.join p = p := by
      rw [join, h, hroot]
      simp
    rw [hjoin, hempty, components, componentsOf, if_neg hhead]
    split
    · rw [List.foldl_cons, hcurrent]
      rfl
    · rfl
  · have hparts : (root.join p).components = root.components ++ bodyOf p.text.toList := components_child hroot hhead
    rw [hparts, List.foldl_append]

theorem place_join {p : Path} (h : p.isAbsolute = false) (root : Path) :
    (root.join p).place = (bodyOf p.text.toList).foldl Place.go root.place :=
  foldl_components_join rfl h root

/-- A path that is read from a normal root points where it does from the root itself, up to levels that cancel out. -/
theorem place_normalFrom (p root : Path) : (p.normalFrom root.normal).place = (root.join p).place.cancelled := by
  cases h : p.isAbsolute with
  | true =>
    have hjoin : root.join p = p := if_pos h
    rw [normalFrom, if_pos h, place_normal, hjoin]
  | false =>
    have hfrom : p.normalFrom root.normal = (root.normal.join p).normal := if_neg (by simp [h])
    rw [hfrom, place_normal, place_join h, place_join h, place_normal, Place.cancelled_foldl_go]

end Path

namespace Transfer

/-- **Where the paths of commands point.**  A normal path is absolute if the path is, and points to the same place
exactly if the path goes at most one level above its start, as each absolute path does; of more levels, every two
cancel out.  The command that sends files names the source and the lists of what to include and to exclude, which are
found from the source; the command that fetches files names the directory on the host.  All of them point where they
are configured to, up to levels that cancel out. -/
theorem command_places (p : Path) (files : SyncSection) (access : Access) (hostname : String)
    (directory destination : Path) :
    (p.normal.isAbsolute = p.isAbsolute ∧ p.normal.place = p.place.cancelled ∧
      (p.normal.place = p.place ↔ p.place.levels ≤ 1) ∧ (p.isAbsolute = true → p.normal.place = p.place)) ∧
    (∃ source included excluded : Path,
      sendCommand files access hostname =
        "rsync -r -e '" ++ access.ssh ++ "' --exclude-from=" ++ excluded.text ++ " --files-from=" ++ included.text ++
          " --progress -uva " ++ source.text ++ "/ " ++ access.user ++ "@" ++ hostname ++ ":" ++ files.destination ∧
      source.place = files.source.place.cancelled ∧
      included.place = (files.source.join files.includeFile).place.cancelled ∧
      excluded.place = (files.source.join files.excludeFile).place.cancelled) ∧
    ∃ fetched : Path,
      fetchCommand access hostname directory destination =
        "rsync -e '" ++ access.ssh ++ "' --progress -uva " ++ access.user ++ "@" ++ hostname ++ ":" ++
          fetched.text ++ "/ " ++ destination.text ++ "/" ∧
      fetched.place = directory.place.cancelled := by
  have hkept : p.normal.place = p.place ↔ p.place.levels ≤ 1 := by
    rw [p.place_normal]
    exact Path.Place.cancelled_eq_iff
  refine ⟨⟨p.isAbsolute_normal, p.place_normal, hkept, fun habsolute => ?_⟩, ⟨_, _, _, rfl, ?_, ?_, ?_⟩, ⟨_, rfl, ?_⟩⟩
  · have hlevels : p.place.levels = 0 := Path.levels_place_of_isAbsolute habsolute
    exact hkept.mpr (by omega)
  · exact files.source.place_normal
  · exact Path.place_normalFrom files.includeFile files.source
  · exact Path.place_normalFrom files.excludeFile files.source
  · exact directory.place_normal

theorem command_places_sample :
    (Path.mk "/srv/../../etc//./x").normal.place = ⟨true, 0, ["etc", "x"]⟩ ∧
    (Path.mk "../lists/./../src").normal.place = ⟨false, 1, ["src"]⟩ ∧
    ∃ source included excluded : Path,
      sendCommand ⟨⟨"../src/"⟩, "/d", ⟨"lists/../in"⟩, ⟨"/etc/../out"⟩⟩ ⟨"ssh", "ann"⟩ "a" =
        "rsync -r -e 'ssh' --exclude-from=" ++ excluded.text ++ " --files-from=" ++ included.text ++
          " --progress -uva " ++ source.text ++ "/ ann@a:/d" ∧
      source.place = ⟨false, 1, ["src"]⟩ ∧ included.place = ⟨false, 1, ["src", "in"]⟩ ∧
      excluded.place = ⟨true, 0, ["out"]⟩ := by
  let files : SyncSection := ⟨⟨"../src/"⟩, "/d", ⟨"lists/../in"⟩, ⟨"/etc/../out"⟩⟩
  have hroot := (command_places ⟨"/srv/../../etc//./x"⟩ files ⟨"ssh", "ann"⟩ "a" ⟨"x"⟩ ⟨"d"⟩).1.2.2.2 rfl
  obtain ⟨⟨-, -, hkept, -⟩, ⟨source, included, excluded, hcommand, hsource, hincluded, hexcluded⟩, -⟩ :=
    command_places ⟨"../lists/./../src"⟩ files ⟨"ssh", "ann"⟩ "a" ⟨"x"⟩ ⟨"d"⟩
  have hrelative := hkept.mpr (by decide)
  refine ⟨hroot.trans (by decide), hrelative.trans (by decide), source, included, excluded, ?_, ?_, ?_, ?_⟩
  · rw [hcommand]
    simp [files, String.append_assoc]
  · exact hsource.trans (by decide)
  · exact hincluded.trans (by decide)
  · exact hexcluded.trans (by decide)

/-- **Two levels up are lost.**  A source two levels above the start is sent as if it were below it, and the lists are
looked for there too; a directory three levels up is fetched from one level up. -/
theorem lost_levels :
    (Path.mk "../../rome").normal.place ≠ (Path.mk "../../rome").place ∧
    (Path.mk "../../rome").place = ⟨false, 2, ["rome"]⟩ ∧
    sendCommand ⟨⟨"../../rome"⟩, "/users/alice/rome", ⟨"include.txt"⟩, ⟨"exclude.txt"⟩⟩ ⟨"ssh", "alice"⟩ "a.ex.net" =
      "rsync -r -e 'ssh' --exclude-from=rome/exclude.txt --files-from=rome/include.txt --progress -uva rome/ " ++
        "alice@a.ex.net:/users/alice/rome" ∧
    fetchCommand ⟨"ssh", "alice"⟩ "a.ex.net" ⟨"../../../x"⟩ ⟨"data"⟩ =
      "rsync -e 'ssh' --progress -uva alice@a.ex.net:../x/ data/" := by
  refine ⟨by decide, by decide, rfl, rfl⟩

end Transfer

end Fleet
