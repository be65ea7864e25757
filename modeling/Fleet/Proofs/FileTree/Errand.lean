import Fleet.Proofs.FileTree.Clear

/-!
# Errands that cannot fail

When the way to its folder is clear, an errand is `Sound`: the folders it has still to make lie each in the one before
(`Ladder`), and the first of them in a directory.  Others may add directories meanwhile; what an errand relies on stays
true (`Sound.grows`).  Each of its own steps keeps it sound, changes nothing but what is on the way to the folder, and
brings it nearer to its end, which is no fault (`Sound.step`).
-/

namespace Fleet

namespace Directory

/-- Nothing but directories has been added to a tree, and those at the given locations alone. -/
def GrowsAt (d d' : Directory) (wanted : Location → Prop) : Prop :=
  d.Grows d' ∧ ∀ l, d'.tree.item? l ≠ d.tree.item? l → wanted l

variable {d d' d'' : Directory} {wanted wanted' : Location → Prop}

theorem GrowsAt.refl (d : Directory) (wanted : Location → Prop) : d.GrowsAt d wanted :=
  ⟨Grows.refl d, fun _ hl => absurd rfl hl⟩

theorem GrowsAt.trans (h : d.GrowsAt d' wanted) (h' : d'.GrowsAt d'' wanted) : d.GrowsAt d'' wanted := by
  refine ⟨h.1.trans h'.1, fun l hl => ?_⟩
  by_cases hfirst : d'.tree.item? l = d.tree.item? l
  · exact h'.2 l (hfirst ▸ hl)
  · exact h.2 l hfirst

theorem GrowsAt.mono (h : d.GrowsAt d' wanted) (hwanted : ∀ l, wanted l → wanted' l) : d.GrowsAt d' wanted' :=
  ⟨h.1, fun l hl => hwanted l (h.2 l hl)⟩

end Directory

namespace FolderErrand

open Directory

/-- Folders of which each is the parent of the next, up to the goal. -/
inductive Ladder (goal : Path) : List Path → Prop
  | goal (hgoal : namesOf goal ≠ []) : Ladder goal [goal]
  | step {p q : Path} {rest : List Path} (hp : namesOf p ≠ []) (hparent : q.parent? = some p)
      (hrest : Ladder goal (q :: rest)) : Ladder goal (p :: q :: rest)

variable {goal p : Path} {rest : List Path} {d d' : Directory} {e : FolderErrand}

theorem Ladder.namesOf_ne_nil (h : Ladder goal (p :: rest)) : namesOf p ≠ [] := by
  cases h with
  | goal hgoal => exact hgoal
  | step hp => exact hp

theorem Ladder.first (h : Ladder goal (p :: rest)) (hgoal : d.Open goal) :
    d.Open p ∧ d.locationOf p <+: d.locationOf goal := by
  induction rest generalizing p with
  | nil =>
    cases h with
    | goal => exact ⟨hgoal, List.prefix_refl _⟩
  | cons q rest ih =>
    cases h with
    | step hp hparent hrest =>
      obtain ⟨hopen, hprefix⟩ := ih hrest
      refine ⟨hopen.parent hparent, List.IsPrefix.trans ?_ hprefix⟩
      rw [d.locationOf_parent hopen.plain hparent]
      exact List.dropLast_prefix _

/-- What an errand for a folder to which the way is clear relies on. -/
def Sound (goal : Path) (d : Directory) : FolderErrand → Prop
  | .climb p missing => Ladder goal (p :: missing)
  | .inspect p missing | .confirm p missing => Ladder goal (p :: missing) ∧ d.tree.isDirectory (d.locationOf p) = true
  | .build [] | .recheck | .done (.error _) => False
  | .build (p :: rest) => Ladder goal (p :: rest) ∧ d.tree.isDirectory (d.locationOf p).dropLast = true
  | .done (.ok ()) => d.tree.isDirectory (d.locationOf goal) = true

/-- How many steps an errand takes at most. -/
def cost : FolderErrand → Nat
  | .climb p missing => 2 * missing.length + 3 * (namesOf p).length
  | .inspect _ missing | .confirm _ missing => 2 * missing.length + 1
  | .build missing => 2 * missing.length
  | .recheck => 1
  | .done _ => 0

theorem Sound.grows (h : Sound goal d e) (hgrows : d.Grows d') : Sound goal d' e := by
  unfold Sound at h ⊢
  split at h
  · exact h
  · rw [hgrows.locationOf_eq]
    exact ⟨h.1, hgrows.2.isDirectory h.2⟩
  · rw [hgrows.locationOf_eq]
    exact ⟨h.1, hgrows.2.isDirectory h.2⟩
  · exact h
  · exact h
  · exact h
  · rw [hgrows.locationOf_eq]
    exact ⟨h.1, hgrows.2.isDirectory h.2⟩
  · rw [hgrows.locationOf_eq]
    exact hgrows.2.isDirectory h

/-! ### the beginning and the end -/

theorem sound_start (h : d.Open goal) : Sound goal d (.start goal) := by
  unfold start
  by_cases hnames : namesOf goal = []
  · rw [if_pos (by simpa using (Path.parent?_eq_none h.plain).mpr hnames), Sound, locationOf, hnames, List.append_nil]
    exact h.place
  · rw [if_neg (by simpa using mt (Path.parent?_eq_none h.plain).mp hnames)]
    exact Ladder.goal hnames

theorem cost_start (h : d.Open goal) : cost (.start goal) ≤ steps goal := by
  unfold start
  split
  · exact Nat.zero_le _
  · have hlength : (namesOf goal).length ≤ goal.components.length := by
      rw [Path.components_eq h.plain, List.length_append, List.length_map]
      omega
    simp only [cost, steps, List.length_nil]
    omega

theorem Sound.eq_done (h : Sound goal d e) (hcost : e.cost = 0) : e = .done (.ok ()) := by
  cases e with
  | climb p missing =>
    have hlength := List.length_pos_iff.mpr (Ladder.namesOf_ne_nil h)
    simp only [cost] at hcost
    omega
  | inspect p missing => cases hcost
  | confirm p missing => cases hcost
  | recheck => cases hcost
  | build missing =>
    cases missing with
    | nil => exact absurd h id
    | cons p rest => cases hcost
  | done result =>
    cases result with
    | ok => rfl
    | error fault => exact absurd h id

/-! ### one step -/

theorem sound_proceed (h : Ladder goal (p :: rest)) (hgoal : d.Open goal)
    (hp : d.tree.isDirectory (d.locationOf p) = true) : Sound goal d (proceed rest) := by
  cases h with
  | goal => exact hp
  | step hne hparent hrest =>
    refine ⟨hrest, ?_⟩
    rw [← d.locationOf_parent (hrest.first hgoal).1.plain hparent]
    exact hp

theorem cost_proceed (rest : List Path) : (proceed rest).cost = 2 * rest.length := by
  cases rest <;> rfl

theorem sound_ascend (h : Ladder goal (p :: rest)) (hgoal : d.Open goal) :
    Sound goal d (ascend p rest) ∧ (ascend p rest).cost + 1 ≤ 2 * rest.length + 3 * (namesOf p).length := by
  obtain ⟨hopen, -⟩ := h.first hgoal
  have hne := h.namesOf_ne_nil
  have hlength := List.length_pos_iff.mpr hne
  unfold ascend
  cases hparent : p.parent? with
  | none => exact absurd ((Path.parent?_eq_none hopen.plain).mp hparent) hne
  | some q =>
    have hnames := (Path.namesOf_parent hopen.plain hparent).1
    simp only
    split
    · rename_i hstart
      have hq : namesOf q = [] :=
        (Path.parent?_eq_none (hopen.plain.parent hparent)).mp (Option.isNone_iff_eq_none.mp hstart)
      refine ⟨⟨h, ?_⟩, ?_⟩
      · rw [← d.locationOf_parent hopen.plain hparent, locationOf, hq, List.append_nil]
        exact (hopen.parent hparent).place
      · simp only [cost, List.length_cons]
        omega
    · rename_i hstart
      have hq : namesOf q ≠ [] := by
        intro hnil
        exact hstart (Option.isNone_iff_eq_none.mpr ((Path.parent?_eq_none (hopen.plain.parent hparent)).mpr hnil))
      refine ⟨.step hq hparent h, ?_⟩
      simp only [cost, List.length_cons, hnames, List.length_dropLast]
      omega

/-- The folder at the first path of a ladder is made, if it cannot be said to be there or its parent not to be there. -/
theorem Ladder.makeDirectory_cases (h : Ladder goal (p :: rest)) (hgoal : d.Open goal) :
    (d.makeDirectory p = .error .notFound ∧ d.tree.isDirectory (d.locationOf p).dropLast = false) ∨
    (d.makeDirectory p = .error .alreadyExists ∧ d.tree.isDirectory (d.locationOf p) = true) ∨
    ∃ d', d.makeDirectory p = .ok d' ∧ d.GrowsAt d' (· <+: d.locationOf goal) ∧ Sound goal d' (proceed rest) := by
  obtain ⟨hopen, hprefix⟩ := h.first hgoal
  refine (hopen.makeDirectory_cases h.namesOf_ne_nil).imp_right (Or.imp_right ?_)
  rintro ⟨d', hmake, hgrows, hmade, hrest⟩
  rw [← hgrows.locationOf_eq] at hmade
  exact ⟨d', hmake, ⟨hgrows, fun l hl => hrest l hl ▸ hprefix⟩, sound_proceed h (hgoal.grows hgrows) hmade⟩

theorem Ladder.isDirectory (h : Ladder goal (p :: rest)) (hgoal : d.Open goal)
    (hp : d.tree.isDirectory (d.locationOf p) = true) : d.isDirectory p = true := by
  rw [(h.first hgoal).1.isDirectory_eq h.namesOf_ne_nil, hp]

/-- **A step of a sound errand.** -/
theorem Sound.step (h : Sound goal d e) (hgoal : d.Open goal) :
    d.GrowsAt (step goal d e).1 (· <+: d.locationOf goal) ∧ Sound goal (step goal d e).1 (step goal d e).2 ∧
      (step goal d e).2.cost ≤ e.cost - 1 := by
  have hstay := GrowsAt.refl d (· <+: d.locationOf goal)
  cases e with
  | climb p missing =>
    obtain ⟨hsound, hcost⟩ := sound_ascend h hgoal
    have hlength := List.length_pos_iff.mpr (Ladder.namesOf_ne_nil h)
    rcases Ladder.makeDirectory_cases h hgoal with ⟨hmake, -⟩ | ⟨hmake, hthere⟩ | ⟨d', hmake, hgrows, hnext⟩
    · simp only [FolderErrand.step, hmake]
      exact ⟨hstay, hsound, Nat.le_sub_one_of_lt hcost⟩
    · simp only [FolderErrand.step, hmake]
      exact ⟨hstay, ⟨h, hthere⟩, by simp only [cost]; omega⟩
    · simp only [FolderErrand.step, hmake]
      exact ⟨hgrows, hnext, (cost_proceed _).trans_le (by simp only [cost]; omega)⟩
  | build missing =>
    cases missing with
    | nil => exact absurd h id
    | cons p rest =>
      obtain ⟨hladder, hparent⟩ := h
      rcases hladder.makeDirectory_cases hgoal with ⟨-, hnone⟩ | ⟨hmake, hthere⟩ | ⟨d', hmake, hgrows, hnext⟩
      · rw [hparent] at hnone
        cases hnone
      · simp only [FolderErrand.step, hmake]
        exact ⟨hstay, ⟨hladder, hthere⟩, by simp only [cost, List.length_cons]; omega⟩
      · simp only [FolderErrand.step, hmake]
        exact ⟨hgrows, hnext, (cost_proceed _).trans_le (by simp only [cost, List.length_cons]; omega)⟩
  | inspect p missing =>
    obtain ⟨hladder, hthere⟩ := h
    simp only [FolderErrand.step, hladder.isDirectory hgoal hthere, if_true]
    exact ⟨hstay, sound_proceed hladder hgoal hthere, (cost_proceed _).trans_le (by simp only [cost]; omega)⟩
  | confirm p rest =>
    obtain ⟨hladder, hthere⟩ := h
    simp only [FolderErrand.step, hladder.isDirectory hgoal hthere, if_true]
    exact ⟨hstay, sound_proceed hladder hgoal hthere, (cost_proceed _).trans_le (by simp only [cost]; omega)⟩
  | recheck => exact absurd h id
  | done result => exact ⟨hstay, h, Nat.zero_le _⟩

theorem Sound.step_eq (h : Sound goal d e) (hgoal : d.Open goal)
    (hthere : d.tree.isDirectory (d.locationOf goal) = true) : (FolderErrand.step goal d e).1 = d := by
  rcases step_directory goal d e with heq | ⟨p, hmake⟩
  · exact heq
  · -- a directory would have been made where nothing was, on the way to a folder that is there
    obtain ⟨target, parent, name, -, -, hparent, hnone, hd⟩ := makeDirectory_eq_ok hmake
    obtain ⟨⟨-, hwanted⟩, -⟩ := h.step hgoal
    have hput := FileTree.item?_put_self hparent name (.directory [])
    have hway : parent ++ [name] <+: d.locationOf goal := hwanted _ fun heq => by
      rw [hd, hput, hnone] at heq
      cases heq
    have hfolder := FileTree.isDirectory_iff.mp (FileTree.isDirectory_of_isPrefix hthere hway)
    rw [hnone] at hfolder
    cases hfolder

end FolderErrand

end Fleet
