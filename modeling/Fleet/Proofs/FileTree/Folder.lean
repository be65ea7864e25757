import Fleet.FileTree.Folder
import Fleet.Proofs.FileTree.Walk

/-!
# What ensuring folders does

A step of an errand makes one directory or changes nothing (`step_gains`), and it keeps in sight the folder that the
errand is for (`Aims.step`): an errand that is done without a fault has made this folder, or found it.  So a folder that
has been ensured is there, and nothing but directories has been added (`ensureFolder_spec`).
-/

namespace Fleet

open FileTree (Gains)

/-- A folder is there.  The starting directory and the top, which alone have no parent, need not be looked for. -/
def Directory.Holds (d : Directory) (p : Path) : Prop := p.parent? = none ∨ d.isDirectory p = true

def Directory.Grows (d d' : Directory) : Prop := d'.location = d.location ∧ d.tree.Gains d'.tree

namespace Directory

variable {d d' : Directory} {p : Path}

theorem Grows.refl (d : Directory) : Grows d d := ⟨rfl, Gains.refl d.tree⟩

theorem Grows.trans {d'' : Directory} (h : Grows d d') (h' : Grows d' d'') : Grows d d'' :=
  ⟨h'.1.trans h.1, h.2.trans h'.2⟩

theorem Grows.isDirectory (h : Grows d d') (hp : d.isDirectory p = true) : d'.isDirectory p = true := by
  obtain ⟨tree', location'⟩ := d'
  obtain ⟨rfl, hgains⟩ := h
  exact isDirectory_mono hgains.keepsFolders hp

theorem Grows.holds (h : Grows d d') (hp : d.Holds p) : d'.Holds p := hp.imp_right h.isDirectory

end Directory

namespace FolderErrand

open Directory

variable {goal p : Path} {missing : List Path} {d : Directory} {e : FolderErrand}

/-! ### one step -/

theorem step_directory (goal : Path) (d : Directory) (e : FolderErrand) :
    (step goal d e).1 = d ∨ ∃ p, d.makeDirectory p = .ok (step goal d e).1 := by
  cases e with
  | climb p missing =>
    simp only [step]
    split
    · rename_i hmade
      exact .inr ⟨p, hmade⟩
    · exact .inl rfl
    · exact .inl rfl
    · exact .inl rfl
  | build missing =>
    cases missing with
    | nil => exact .inl rfl
    | cons p rest =>
      simp only [step]
      split
      · rename_i hmade
        exact .inr ⟨p, hmade⟩
      · exact .inl rfl
      · exact .inl rfl
  | inspect p missing => exact .inl rfl
  | confirm p rest => exact .inl rfl
  | recheck => exact .inl rfl
  | done result => exact .inl rfl

theorem step_gains (goal : Path) (d : Directory) (e : FolderErrand) : d.Grows (step goal d e).1 := by
  rcases step_directory goal d e with heq | ⟨p, hmade⟩
  · rw [heq]
    exact Grows.refl d
  · obtain ⟨hlocation, hgains, -⟩ := gains_of_makeDirectory hmade
    exact ⟨hlocation, hgains⟩

/-- The folder that an errand comes to in the end is its goal, and it is there when the errand is done. -/
def Aims (goal : Path) (d : Directory) : FolderErrand → Prop
  | .climb p missing | .inspect p missing | .confirm p missing => (p :: missing).getLast? = some goal
  | .build missing => missing.getLast? = some goal
  | .recheck | .done (.error _) => True
  | .done (.ok ()) => d.isDirectory goal = true

theorem aims_proceed (hp : d.isDirectory p = true) (h : (p :: missing).getLast? = some goal) :
    Aims goal d (proceed missing) := by
  cases missing with
  | nil =>
    obtain rfl : p = goal := by simpa using h
    exact hp
  | cons q rest => exact h

theorem aims_failed (goal : Path) (d : Directory) (fault : SystemFault) : Aims goal d (failed fault) := by
  cases fault <;> trivial

theorem aims_ascend (h : (p :: missing).getLast? = some goal) : Aims goal d (ascend p missing) := by
  unfold ascend
  split
  · split
    · exact h
    · exact h
  · exact h

theorem Aims.step (h : Aims goal d e) : Aims goal (step goal d e).1 (step goal d e).2 := by
  cases e with
  | climb p missing =>
    simp only [FolderErrand.step]
    split
    · rename_i hmade
      exact aims_proceed (gains_of_makeDirectory hmade).2.2 h
    · exact aims_ascend h
    · exact h
    · exact aims_failed goal d _
  | inspect p missing =>
    simp only [FolderErrand.step]
    split
    · rename_i hthere
      exact aims_proceed hthere h
    · exact aims_failed goal d _
  | build missing =>
    cases missing with
    | nil => cases h
    | cons p rest =>
      simp only [FolderErrand.step]
      split
      · rename_i hmade
        exact aims_proceed (gains_of_makeDirectory hmade).2.2 h
      · exact h
      · exact aims_failed goal d _
  | confirm p rest =>
    simp only [FolderErrand.step]
    split
    · rename_i hthere
      exact aims_proceed hthere h
    · exact aims_failed goal d _
  | recheck =>
    simp only [FolderErrand.step]
    split
    · rename_i hthere
      exact hthere
    · trivial
  | done result => exact h

theorem Aims.isDirectory (h : Aims goal d e) (hresult : e.result = .ok ()) : d.isDirectory goal = true := by
  cases e with
  | done result =>
    obtain rfl : result = .ok () := hresult
    exact h
  | _ => cases hresult

/-! ### an errand alone -/

theorem run_succ (goal : Path) (fuel : Nat) (d : Directory) (e : FolderErrand) :
    run goal (fuel + 1) d e = run goal fuel (step goal d e).1 (step goal d e).2 := by
  cases e with
  | done result => cases fuel <;> rfl
  | _ => rfl

theorem run_spec (fuel : Nat) (h : Aims goal d e) :
    d.Grows (run goal fuel d e).1 ∧ Aims goal (run goal fuel d e).1 (run goal fuel d e).2 := by
  induction fuel generalizing d e with
  | zero =>
    have hstay : run goal 0 d e = (d, e) := by cases e <;> rfl
    rw [hstay]
    exact ⟨Grows.refl d, h⟩
  | succ fuel ih =>
    rw [run_succ]
    obtain ⟨hgrows, haims⟩ := ih h.step
    exact ⟨(step_gains goal d e).trans hgrows, haims⟩

end FolderErrand

namespace Directory

variable {d d' : Directory} {p : Path} {result : Except SystemFault Unit}

/-- **What ensuring a folder does.** -/
theorem ensureFolder_spec (h : d.ensureFolder p = (d', result)) : d.Grows d' ∧ (result = .ok () → d'.Holds p) := by
  have hd : (FolderErrand.run p (FolderErrand.steps p) d (.start p)).1 = d' := congrArg Prod.fst h
  have hresult : (FolderErrand.run p (FolderErrand.steps p) d (.start p)).2.result = result := congrArg Prod.snd h
  by_cases hparent : p.parent? = none
  · have hstart : FolderErrand.start p = .done (.ok ()) := by simp [FolderErrand.start, hparent]
    rw [hstart, FolderErrand.run] at hd
    obtain rfl : d = d' := hd
    exact ⟨Grows.refl d, fun _ => .inl hparent⟩
  · have hstart : FolderErrand.start p = .climb p [] := by simp [FolderErrand.start, hparent]
    have haims : FolderErrand.Aims p d (.start p) := by
      rw [hstart]
      rfl
    obtain ⟨hgrows, hend⟩ := FolderErrand.run_spec (FolderErrand.steps p) haims
    rw [hd] at hgrows hend
    exact ⟨hgrows, fun hok => .inr (hend.isDirectory (hresult.trans hok))⟩

/-- **What ensuring several folders does.** -/
theorem ensureFolders_spec {folders : List Path} (h : d.ensureFolders folders = (d', result)) :
    d.Grows d' ∧ (result = .ok () → ∀ p ∈ folders, d'.Holds p) := by
  induction folders generalizing d with
  | nil =>
    obtain ⟨rfl, -⟩ := Prod.mk.inj h
    exact ⟨Grows.refl d, nofun⟩
  | cons p rest ih =>
    rw [ensureFolders] at h
    split at h
    · rename_i d₁ hfirst
      obtain ⟨hgrows, hholds⟩ := ensureFolder_spec hfirst
      obtain ⟨hgrows', hrest⟩ := ih h
      refine ⟨hgrows.trans hgrows', fun hok => List.forall_mem_cons.mpr ⟨hgrows'.holds (hholds rfl), hrest hok⟩⟩
    · rename_i d₁ fault hfirst
      obtain ⟨rfl, rfl⟩ := Prod.mk.inj h
      exact ⟨(ensureFolder_spec hfirst).1, nofun⟩

end Directory

end Fleet
