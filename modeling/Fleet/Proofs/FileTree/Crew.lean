import Fleet.Proofs.FileTree.Errand

/-!
# Folders ensured at the same time

A crew is any number of calls that ensure folders in one tree, each with the errand it is on.  A move is one step of one
of them, so a run of moves is an interleaving of their steps (`run_alone` is the one with a single call).  When the ways
to all folders are clear, every errand stays sound whatever the others do (`Sound.move`), and only its own moves count
for it (`Sound.run`): a call that has had its steps has come out well.
-/

namespace Fleet

open Directory (GrowsAt Open)

/-- A call that ensures a folder. -/
inductive FolderCall where
  /-- the folder itself is ensured -/
  | folder (p : Path)
  /-- the folder in which a file is to lie is ensured -/
  | parent (file : Path)

namespace FolderCall

/-- The folder that is ensured: without a parent it is the empty path, which needs no making. -/
def goal : FolderCall → Path
  | .folder p => p
  | .parent file => file.parent?.getD ⟨""⟩

def alone (d : Directory) : FolderCall → Directory × Except SystemFault Unit
  | .folder p => d.ensureFolder p
  | .parent file => d.ensureParent file

theorem alone_eq (d : Directory) (call : FolderCall) : call.alone d = d.ensureFolder call.goal := by
  cases call with
  | folder p => rfl
  | parent file =>
    rw [alone, goal, Directory.ensureParent]
    cases file.parent? with
    | none => rfl
    | some p =>
      rw [Option.toList_some, Option.getD_some, Directory.ensureFolders]
      rcases d.ensureFolder p with ⟨d', fault | ⟨⟩⟩ <;> rfl

end FolderCall

/-- Calls that are made at the same time: the directory by now, and each folder with the errand for it. -/
structure Crew where
  directory : Directory
  errands : List (Path × FolderErrand)

namespace Crew

def start (d : Directory) (goals : List Path) : Crew := ⟨d, goals.map fun goal => (goal, .start goal)⟩

/-- One step of the call at a position. -/
def move (s : Crew) (i : Nat) : Crew :=
  match s.errands[i]? with
  | none => s
  | some (goal, e) =>
    let (d, e) := FolderErrand.step goal s.directory e
    ⟨d, s.errands.set i (goal, e)⟩

def run (s : Crew) (moves : List Nat) : Crew := moves.foldl move s

def IsOver (s : Crew) : Prop := ∀ x ∈ s.errands, ∃ result, x.2 = .done result

/-- How many steps the call at a position takes yet, at most. -/
def left (s : Crew) (i : Nat) : Nat := (s.errands[i]?).elim 0 (·.2.cost)

/-- The calls are for the given folders, no errand can fail, and only what is on the way to a folder has been added to
the directory that they began in. -/
structure Sound (d : Directory) (goals : List Path) (s : Crew) : Prop where
  map_fst : s.errands.map Prod.fst = goals
  grows : d.GrowsAt s.directory fun l => ∃ goal ∈ goals, l <+: d.locationOf goal
  errands : ∀ x ∈ s.errands, x.2.Sound x.1 s.directory

variable {d : Directory} {goals : List Path} {s : Crew} {goal : Path} {e : FolderErrand} {i : Nat}

theorem move_eq (h : s.errands[i]? = some (goal, e)) :
    s.move i = ⟨(FolderErrand.step goal s.directory e).1,
      s.errands.set i (goal, (FolderErrand.step goal s.directory e).2)⟩ := by
  rw [move, h]

theorem sound_start (hopen : ∀ goal ∈ goals, d.Open goal) : Sound d goals (start d goals) where
  map_fst := by simp [start, Function.comp_def]
  grows := GrowsAt.refl d _
  errands := by
    intro x hx
    obtain ⟨goal, hgoal, rfl⟩ := List.mem_map.mp hx
    exact FolderErrand.sound_start (hopen goal hgoal)

theorem Sound.errand (h : Sound d goals s) (hopen : ∀ goal ∈ goals, d.Open goal) (he : s.errands[i]? = some (goal, e)) :
    goal ∈ goals ∧ e.Sound goal s.directory ∧ s.directory.Open goal := by
  have hmem := List.mem_of_getElem? he
  have hgoal : goal ∈ goals := by
    rw [← h.map_fst]
    exact List.mem_map_of_mem hmem
  exact ⟨hgoal, h.errands _ hmem, (hopen goal hgoal).grows h.grows.1⟩

/-- **A move of a sound crew.** -/
theorem Sound.move (h : Sound d goals s) (hopen : ∀ goal ∈ goals, d.Open goal) (i : Nat) :
    Sound d goals (s.move i) ∧ ∀ j, (s.move i).left j ≤ s.left j - if i = j then 1 else 0 := by
  cases he : s.errands[i]? with
  | none =>
    have hstay : s.move i = s := by rw [Crew.move, he]
    rw [hstay]
    refine ⟨h, fun j => ?_⟩
    split
    · rename_i hj
      rw [left, ← hj, he]
      exact Nat.zero_le _
    · exact Nat.le_refl _
  | some x =>
    obtain ⟨goal, e⟩ := x
    obtain ⟨hgoal, hsound, hway⟩ := h.errand hopen he
    obtain ⟨hgrows, hsound', hcost⟩ := hsound.step hway
    have hi : i < s.errands.length := (List.getElem?_eq_some_iff.mp he).1
    rw [move_eq he]
    refine ⟨⟨?_, ?_, ?_⟩, fun j => ?_⟩
    · have hpath : (s.errands.map Prod.fst)[i]? = some goal := by rw [List.getElem?_map, he, Option.map_some]
      obtain ⟨hi', hget⟩ := List.getElem?_eq_some_iff.mp hpath
      rw [List.map_set, ← hget, List.set_getElem_self hi', h.map_fst]
    · refine h.grows.trans (hgrows.mono fun l hl => ⟨goal, hgoal, ?_⟩)
      rwa [h.grows.1.locationOf_eq] at hl
    · -- the others rely on nothing but directories, which stay
      intro x hx
      rcases List.mem_or_eq_of_mem_set hx with hold | rfl
      · exact (h.errands x hold).grows hgrows.1
      · exact hsound'
    · rw [left, left]
      by_cases hj : i = j
      · subst hj
        rw [List.getElem?_set_self hi, he, if_pos rfl]
        exact hcost
      · rw [List.getElem?_set_ne hj, if_neg hj]
        exact Nat.le_refl _

/-- **A run of a sound crew.** -/
theorem Sound.run (h : Sound d goals s) (hopen : ∀ goal ∈ goals, d.Open goal) (moves : List Nat) :
    Sound d goals (s.run moves) ∧ ∀ j, (s.run moves).left j ≤ s.left j - moves.count j := by
  induction moves generalizing s with
  | nil => exact ⟨h, fun j => Nat.le_refl _⟩
  | cons i rest ih =>
    obtain ⟨hmove, hleft⟩ := h.move hopen i
    obtain ⟨hrun, hrest⟩ := ih hmove
    refine ⟨hrun, fun j => (hrest j).trans ?_⟩
    have hj := hleft j
    rw [List.count_cons]
    simp only [beq_iff_eq]
    omega

theorem Sound.run_directory (h : Sound d goals s) (hopen : ∀ goal ∈ goals, d.Open goal)
    (hthere : ∀ goal ∈ goals, s.directory.tree.isDirectory (s.directory.locationOf goal) = true) (moves : List Nat) :
    (s.run moves).directory = s.directory := by
  induction moves generalizing s with
  | nil => rfl
  | cons i rest ih =>
    have hmove : (s.move i).directory = s.directory := by
      cases he : s.errands[i]? with
      | none => rw [Crew.move, he]
      | some x =>
        obtain ⟨hgoal, hsound, hway⟩ := h.errand hopen he
        rw [move_eq he]
        exact hsound.step_eq hway (hthere _ hgoal)
    have hrest := ih (h.move hopen i).1 (by rwa [hmove])
    exact hrest.trans hmove

theorem run_alone (goal : Path) (fuel : Nat) (d : Directory) (e : FolderErrand) :
    run ⟨d, [(goal, e)]⟩ (List.replicate fuel 0) =
      ⟨(FolderErrand.run goal fuel d e).1, [(goal, (FolderErrand.run goal fuel d e).2)]⟩ := by
  induction fuel generalizing d e with
  | zero => cases e <;> rfl
  | succ fuel ih =>
    rw [FolderErrand.run_succ, ← ih, List.replicate_succ]
    rfl

/-! ### what the calls come to -/

section AtRest

variable (hopen : ∀ goal ∈ goals, d.Open goal) (moves : List Nat)
include hopen

theorem errands_run {i : Nat} (hgoal : goals[i]? = some goal) (hmoves : FolderErrand.steps goal ≤ moves.count i) :
    ((start d goals).run moves).errands[i]? = some (goal, .done (.ok ())) := by
  obtain ⟨hsound, hleft⟩ := (sound_start hopen).run hopen moves
  have hfirst := hleft i
  have hpath : (((start d goals).run moves).errands.map Prod.fst)[i]? = some goal := by rw [hsound.map_fst, hgoal]
  rw [List.getElem?_map, Option.map_eq_some_iff] at hpath
  obtain ⟨⟨goal, e⟩, he, rfl⟩ := hpath
  simp only at hgoal hmoves
  have hcost : e.cost = 0 := by
    have hstart : (start d goals).left i ≤ FolderErrand.steps goal := by
      rw [left, start, List.getElem?_map, hgoal]
      exact FolderErrand.cost_start (hopen _ (List.mem_of_getElem? hgoal))
    have hlast : ((start d goals).run moves).left i = e.cost := by rw [left, he]; rfl
    omega
  rw [he, (hsound.errand hopen he).2.1.eq_done hcost]

theorem result_run {x : Path × FolderErrand} (hx : x ∈ ((start d goals).run moves).errands)
    {result : Except SystemFault Unit} (hdone : x.2 = .done result) : result = .ok () := by
  have hsound := ((sound_start hopen).run hopen moves).1.errands x hx
  rw [hdone] at hsound
  exact FolderErrand.done.inj (hsound.eq_done rfl)

theorem item?_run (hover : ((start d goals).run moves).IsOver) :
    (∀ goal ∈ goals, ((start d goals).run moves).directory.tree.isDirectory (d.locationOf goal) = true) ∧
      ∀ l, (¬ ∃ goal ∈ goals, l <+: d.locationOf goal) →
        ((start d goals).run moves).directory.tree.item? l = d.tree.item? l := by
  obtain ⟨hsound, -⟩ := (sound_start hopen).run hopen moves
  constructor
  · intro goal hgoal
    rw [← hsound.map_fst] at hgoal
    obtain ⟨x, hx, rfl⟩ := List.mem_map.mp hgoal
    obtain ⟨result, hdone⟩ := hover x hx
    have herrand := hsound.errands x hx
    obtain rfl := result_run hopen moves hx hdone
    rw [hdone] at herrand
    rw [← hsound.grows.1.locationOf_eq]
    exact herrand
  · intro l hl
    by_contra hchanged
    exact hl (hsound.grows.2 l hchanged)

end AtRest

theorem ensureFolder_of_isDirectory (h : d.Open goal) (hthere : d.tree.isDirectory (d.locationOf goal) = true) :
    d.ensureFolder goal = (d, .ok ()) := by
  have hone : ∀ p ∈ [goal], d.Open p := by simpa using h
  have hsame := (sound_start hone).run_directory hone (by simpa [start] using hthere)
    (List.replicate (FolderErrand.steps goal) 0)
  have hdone := @errands_run d [goal] goal hone (List.replicate (FolderErrand.steps goal) 0) 0 rfl (by simp)
  rw [start, List.map_singleton, run_alone] at hsame hdone
  rw [Directory.ensureFolder]
  rcases hrun : FolderErrand.run goal (FolderErrand.steps goal) d (.start goal) with ⟨d', e⟩
  rw [hrun] at hsame hdone
  obtain rfl : d' = d := hsame
  obtain rfl : e = .done (.ok ()) := congrArg Prod.snd (Option.some_inj.mp hdone)
  rfl

/-- **Calls that ensure folders at the same time.**  Whatever else is called for, and in whatever order the steps are
made, a call returns after its own steps, none fails, and what was there stays.  When all have returned, the folders and
the ones above them are there, and nothing else is new; and all calls come out well again, one by one as well as
together, and make nothing. -/
theorem run_ensures (d : Directory) (calls : List FolderCall) (hplace : d.tree.isDirectory d.location = true)
    (hpaths : ∀ call ∈ calls, call.goal.IsPlain ∧ call.goal.Fits)
    (hclear : ∀ call ∈ calls, d.tree.Clear (d.locationOf call.goal)) (moves : List Nat) :
    let s := (start d (calls.map FolderCall.goal)).run moves
    (∀ i call, calls[i]? = some call → FolderErrand.steps call.goal ≤ moves.count i →
      s.errands[i]? = some (call.goal, .done (.ok ()))) ∧
    (∀ x ∈ s.errands, ∀ result, x.2 = .done result → result = .ok ()) ∧
    (∀ l node, d.tree.item? l = some node → s.directory.tree.item? l = some node) ∧
    (s.IsOver →
      (∀ l, s.directory.tree.item? l =
        if ∃ call ∈ calls, l <+: d.locationOf call.goal then some (.directory []) else d.tree.item? l) ∧
      (∀ call ∈ calls, call.alone s.directory = (s.directory, .ok ())) ∧
      ∀ again,
        ((start s.directory (calls.map FolderCall.goal)).run again).directory = s.directory ∧
        (∀ i call, calls[i]? = some call → FolderErrand.steps call.goal ≤ again.count i →
          ((start s.directory (calls.map FolderCall.goal)).run again).errands[i]? = some (call.goal, .done (.ok ()))) ∧
        ∀ x ∈ ((start s.directory (calls.map FolderCall.goal)).run again).errands,
          ∀ result, x.2 = .done result → result = .ok ()) := by
  intro s
  have hopen : ∀ goal ∈ calls.map FolderCall.goal, d.Open goal := by
    intro goal hgoal
    obtain ⟨call, hcall, rfl⟩ := List.mem_map.mp hgoal
    refine ⟨(hpaths call hcall).1, (hpaths call hcall).2, ?_, hclear call hcall⟩
    rw [Directory.base]
    split
    · rfl
    · exact hplace
  have hgoal : ∀ i (call : FolderCall), calls[i]? = some call →
      (calls.map FolderCall.goal)[i]? = some call.goal := fun i call hcall => by
    rw [List.getElem?_map, hcall, Option.map_some]
  have hgrows : d.Grows s.directory := ((sound_start hopen).run hopen moves).1.grows.1
  refine ⟨fun i call hcall hmoves => errands_run hopen moves (hgoal i call hcall) hmoves,
    fun x hx result hdone => result_run hopen moves hx hdone, fun l node hnode => hgrows.2.item? hnode, fun hover => ?_⟩
  obtain ⟨hthere, hrest⟩ := item?_run hopen moves hover
  have hopen' : ∀ goal ∈ calls.map FolderCall.goal, s.directory.Open goal := fun goal h => (hopen goal h).grows hgrows
  have hthere' : ∀ goal ∈ calls.map FolderCall.goal,
      s.directory.tree.isDirectory (s.directory.locationOf goal) = true := fun goal h => by
    rw [hgrows.locationOf_eq]
    exact hthere goal h
  refine ⟨fun l => ?_, fun call hcall => ?_, fun again => ⟨(sound_start hopen').run_directory hopen' hthere' again,
    fun i call hcall hmoves => errands_run hopen' again (hgoal i call hcall) hmoves,
    fun x hx result hdone => result_run hopen' again hx hdone⟩⟩
  · split
    · rename_i hwanted
      obtain ⟨call, hcall, hl⟩ := hwanted
      exact FileTree.isDirectory_iff.mp
        (FileTree.isDirectory_of_isPrefix (hthere call.goal (List.mem_map_of_mem hcall)) hl)
    · rename_i hwanted
      exact hrest l (by simpa using hwanted)
  · rw [FolderCall.alone_eq]
    exact ensureFolder_of_isDirectory (hopen' _ (List.mem_map_of_mem hcall)) (hthere' _ (List.mem_map_of_mem hcall))

/-! ### samples -/

def sampleDirectory : Directory := ⟨⟨[("data", .directory [("keep", .file [] false)])]⟩, []⟩

/-- Calls for two folders, the one within the other. -/
def sampleCalls : List FolderCall := [.folder ⟨"a/b"⟩, .parent ⟨"a//c"⟩]

/-- Both calls of the sample, each after the other time and again. -/
def sampleMoves : List Nat := (List.replicate 10 [1, 0]).flatten

theorem run_ensures_sample :
    sampleDirectory.tree.isDirectory sampleDirectory.location = true ∧
    (∀ call ∈ sampleCalls, call.goal.IsPlain ∧ call.goal.Fits) ∧
    (∀ call ∈ sampleCalls, sampleDirectory.tree.Clear (sampleDirectory.locationOf call.goal)) ∧
    ((start sampleDirectory (sampleCalls.map FolderCall.goal)).run sampleMoves).errands[0]? =
      some (⟨"a/b"⟩, .done (.ok ())) ∧
    ((start sampleDirectory (sampleCalls.map FolderCall.goal)).run sampleMoves).directory.tree.item? ["a"] =
      some (.directory []) := by
  have hplace : sampleDirectory.tree.isDirectory sampleDirectory.location = true := rfl
  have hpaths : ∀ call ∈ sampleCalls, call.goal.IsPlain ∧ call.goal.Fits := by
    have hplain : ∀ call ∈ sampleCalls, ∀ name ∈ Directory.namesOf call.goal, name ≠ "." ∧ name ≠ ".." := by decide +kernel
    have hnul : ∀ call ∈ sampleCalls, '\x00' ∉ call.goal.text.toList := by decide +kernel
    have hlength : ∀ call ∈ sampleCalls, call.goal.text.utf8ByteSize ≤ Directory.maxPath := by decide +kernel
    have hnames : ∀ call ∈ sampleCalls, ∀ name ∈ Directory.namesOf call.goal, name.utf8ByteSize ≤ Directory.maxName := by
      decide +kernel
    exact fun call hcall => ⟨hplain call hcall, hnul call hcall, hlength call hcall, hnames call hcall⟩
  have hclear : ∀ call ∈ sampleCalls, sampleDirectory.tree.Clear (sampleDirectory.locationOf call.goal) := by
    have hways : ∀ call ∈ sampleCalls, ∀ l ∈ (sampleDirectory.locationOf call.goal).inits,
        sampleDirectory.tree.item? l = none ∨ sampleDirectory.tree.isDirectory l = true := by decide +kernel
    exact fun call hcall l hl => hways call hcall l (List.mem_inits _ _ |>.mpr hl)
  obtain ⟨hdone, -, -, hover⟩ := run_ensures sampleDirectory sampleCalls hplace hpaths hclear sampleMoves
  have hreturned : ((start sampleDirectory (sampleCalls.map FolderCall.goal)).run sampleMoves).IsOver := by
    have hresults : ∀ x ∈ ((start sampleDirectory (sampleCalls.map FolderCall.goal)).run sampleMoves).errands,
        x.2.result = .ok () := by decide +kernel
    rintro ⟨goal, e⟩ hx
    have hresult := hresults _ hx
    cases e with
    | done result => exact ⟨result, rfl⟩
    | _ => cases hresult
  have hitem := (hover hreturned).1 ["a"]
  rw [if_pos (by decide +kernel)] at hitem
  exact ⟨hplace, hpaths, hclear, hdone 0 _ rfl (by decide +kernel), hitem⟩

theorem ensureFolder_nameTooLong {name : String} (hname : Path.IsName name) (hnul : '\x00' ∉ name.toList)
    (hlong : Directory.maxName < name.utf8ByteSize) (hplace : d.tree.isDirectory d.location = true) :
    (d.ensureFolder ⟨name⟩).2 = .error .nameTooLong := by
  have hfind : d.find ⟨name⟩ = .error .nameTooLong := by
    have hstep : Directory.walk d.tree (d.base ⟨name⟩) [name] = .error .nameTooLong := by
      have hbase : d.base ⟨name⟩ = d.location := if_neg (Path.not_isAbsolute_name hname)
      simp only [Directory.walk, Directory.step, hbase, hplace, hname.ne_current, hname.ne_up, if_pos hlong, if_false,
        Bool.not_true, Bool.false_eq_true]
    rw [Directory.find_eq, Directory.textFault?, if_neg hnul, if_neg hname.ne_empty]
    by_cases hpath : Directory.maxPath < name.utf8ByteSize
    · rw [if_pos hpath]
    · rw [if_neg hpath, Path.namesOf_name hname]
      simp only [hstep]
      rfl
  have hmake : d.makeDirectory ⟨name⟩ = .error .nameTooLong := by
    simp only [Directory.makeDirectory, hfind, bind, Except.bind]
  have hcomponents : (Path.mk name).components = [.name name] := Path.componentsOf_name hname
  have hstart : FolderErrand.start ⟨name⟩ = .climb ⟨name⟩ [] := by
    simp [FolderErrand.start, Path.parent?, hcomponents]
  have hclimb : FolderErrand.step ⟨name⟩ d (.climb ⟨name⟩ []) = (d, .done (.error .nameTooLong)) := by
    simp only [FolderErrand.step, hmake, FolderErrand.failed]
  have hrun : FolderErrand.run ⟨name⟩ (FolderErrand.steps ⟨name⟩) d (.climb ⟨name⟩ []) =
      (d, .done (.error .nameTooLong)) := by
    rw [FolderErrand.steps, FolderErrand.run_succ, hclimb, FolderErrand.run]
  rw [Directory.ensureFolder, hstart, hrun]
  rfl

/-- The way to a folder can be clear, and its path plain, and yet it cannot be ensured. -/
theorem ensureFolder_nameTooLong_sample :
    let name := String.ofList (List.replicate 256 'a')
    (∀ l, FileTree.empty.Clear l) ∧ (Path.mk name).IsPlain ∧
      ((Directory.mk .empty []).ensureFolder ⟨name⟩).2 = .error .nameTooLong := by
  have hname : Path.IsName (String.ofList (List.replicate 256 'a')) := by
    refine ⟨by decide +kernel, by decide +kernel, by decide +kernel, ?_⟩
    rw [String.toList_ofList]
    decide
  have hnul : '\x00' ∉ (String.ofList (List.replicate 256 'a')).toList := by
    rw [String.toList_ofList]
    decide
  refine ⟨fun l l' _ => ?_, ?_, ensureFolder_nameTooLong hname hnul (by decide +kernel) rfl⟩
  · cases l' with
    | nil => exact .inr rfl
    | cons name rest => exact .inl rfl
  · intro name hmem
    rw [Path.namesOf_name hname, List.mem_singleton] at hmem
    subst hmem
    exact ⟨hname.2.1, hname.2.2.1⟩

end Crew

end Fleet
