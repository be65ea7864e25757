import Fleet.Proofs.Launch.Resolution
import Fleet.Proofs.Override.Flags
import Fleet.Proofs.Text.Blank

/-!
# Overrides and launches

Whatever overrides set can be shown on a command line, so an experiment that can be launched can be launched with any
accepted overrides, and only its arguments are others.  An override that sets an argument to the text it is shown as may
change the value, a number or nothing into a text, but not what is shown of it (`display_set`).  So such overrides, as
many as there are and in whatever order, leave the launch as it is (`overridden_launch`).
-/

namespace Fleet

open Yaml (Value)

namespace Arguments

variable {a b : Arguments} {name raw text : String} {raws : List String} {v w : Value}

/-! ### arguments that can be shown -/

theorem isScalar_overrideValue {old : Option Value} (h : overrideValue old text = .ok v) : v.IsScalar := by
  unfold overrideValue at h
  split at h
  · split at h
    · rename_i b _
      cases h
      cases b with
      | true => exact ⟨_, .yes⟩
      | false => exact ⟨_, .no⟩
    · cases h
  · cases h
    exact ⟨_, .text _⟩

theorem canBeShown_set (ha : ∀ entry ∈ a.entries, CanBeShown entry) (hv : v.IsScalar) :
    ∀ entry ∈ (a.set name v).entries, CanBeShown entry := by
  change ∀ entry ∈ setEntries name v a.entries, CanBeShown entry
  intro entry hentry
  unfold setEntries at hentry
  split at hentry
  · obtain ⟨old, hold, rfl⟩ := List.mem_map.mp hentry
    split
    · exact ⟨(ha old hold).1, hv⟩
    · exact ha old hold
  · rcases List.mem_append.mp hentry with hold | hnew
    · exact ha entry hold
    · rw [List.mem_singleton.mp hnew]
      exact ⟨⟨_, .text name⟩, hv⟩

theorem canBeShown_overrideAll (ha : ∀ entry ∈ a.entries, CanBeShown entry) (h : a.overrideAll raws = .ok b) :
    ∀ entry ∈ b.entries, CanBeShown entry := by
  induction raws generalizing a with
  | nil =>
    cases h
    exact ha
  | cons raw rest ih =>
    rw [overrideAll] at h
    split at h
    · rename_i next hnext
      obtain ⟨name, value, v, -, hv, rfl⟩ := override_eq_ok hnext
      exact ih (canBeShown_set ha (isScalar_overrideValue hv)) h
    · cases h

/-! ### what is shown of arguments -/

/-- The names of arguments and what is shown of their values. -/
def display (a : Arguments) : List (Value × Option String) := a.entries.map fun e => (e.1, e.2.scalarText?)

theorem display_set (hget : a.get? name = some v) (hsame : w.scalarText? = v.scalarText?) :
    (a.set name w).display = a.display := by
  have hthere : (a.entries.any fun e => e.1.isText name) = true := by
    rw [List.any_eq_true, ← List.find?_isSome, ← Option.isSome_map (f := Prod.snd)]
    exact Option.isSome_of_eq_some hget
  change (setEntries name w a.entries).map _ = _
  rw [setEntries, if_pos hthere, List.map_map]
  refine List.map_congr_left fun entry hentry => ?_
  by_cases hname : entry.1.isText name = true
  · obtain ⟨key, old⟩ := entry
    obtain rfl : key = .text name := Value.isText_iff.mp hname
    obtain rfl : old = v := Option.some.inj ((get?_of_mem hentry).symm.trans hget)
    simp only [Function.comp_apply, if_pos hname, hsame]
  · simp only [Function.comp_apply, if_neg hname]

/-- An override sets an argument to the text that it is shown as. -/
def Restates (a : Arguments) (raw : String) : Prop :=
  ∃ name text, (.text name, some text) ∈ a.display ∧ Assigns raw name text

theorem overrideValue_shown (h : v.Shown text) : ∃ w, overrideValue (some v) text = .ok w ∧ w.Shown text := by
  cases h with
  | null => exact ⟨_, rfl, .text _⟩
  | yes => exact ⟨_, rfl, .yes⟩
  | no => exact ⟨_, rfl, .no⟩
  | number n => exact ⟨_, rfl, .text _⟩
  | text s => exact ⟨_, rfl, .text _⟩

theorem override_restates (h : a.Restates raw) : ∃ b, a.override raw = .ok b ∧ b.display = a.display := by
  obtain ⟨name, text, hmem, hassigns⟩ := h
  obtain ⟨⟨key, v⟩, hentry, heq⟩ := List.mem_map.mp hmem
  obtain ⟨rfl, htext⟩ := Prod.mk.inj heq
  have hget : a.get? name = some v := get?_of_mem hentry
  obtain ⟨w, hw, hshown⟩ := overrideValue_shown (Value.scalarText?_eq_some.mp htext)
  refine ⟨a.set name w, ?_, display_set hget ?_⟩
  · simp only [override, splitOverride_eq_ok.mpr hassigns, hget, hw]
  · rw [Value.scalarText?_eq_some.mpr hshown, htext]

theorem overrideAll_restates (h : ∀ raw ∈ raws, a.Restates raw) :
    ∃ b, a.overrideAll raws = .ok b ∧ b.display = a.display := by
  induction raws generalizing a with
  | nil => exact ⟨a, rfl, rfl⟩
  | cons raw rest ih =>
    obtain ⟨hraw, hrest⟩ := List.forall_mem_cons.mp h
    obtain ⟨next, hnext, hsame⟩ := override_restates hraw
    -- what the others restate is still there to be restated
    have hstill : ∀ raw ∈ rest, next.Restates raw := fun raw hmem => by
      rw [Restates, hsame]
      exact hrest raw hmem
    obtain ⟨b, hb, hdisplay⟩ := ih hstill
    exact ⟨b, by rw [overrideAll, hnext]; exact hb, hdisplay.trans hsame⟩

end Arguments

namespace Launch

variable {c d : Config} {name : String} {options : LaunchOptions} {e : Experiment} {l : Launch}
  {overrides : List String}

theorem flag_congr {x y : Value × Value} (hname : x.1 = y.1) (hvalue : x.2.scalarText? = y.2.scalarText?) :
    flag name x = flag name y := by
  simp only [flag, hname, hvalue]

theorem flags_congr {xs ys : List (Value × Value)} (h : List.Forall₂ (fun x y => flag name x = flag name y) xs ys) :
    flags name xs = flags name ys := by
  induction h with
  | nil => rfl
  | cons hfirst _ ih => rw [flags, flags, hfirst, ih]

theorem flags_of_display {a b : Arguments} (h : a.display = b.display) :
    flags name a.entries = flags name b.entries := by
  refine flags_congr ?_
  have hsame : List.Forall₂ (· = ·) a.display b.display := List.forall₂_eq_eq_eq ▸ h
  rw [Arguments.display, Arguments.display, List.forall₂_map_left_iff, List.forall₂_map_right_iff] at hsame
  exact hsame.imp fun x y hxy => flag_congr (Prod.mk.inj hxy).1 (Prod.mk.inj hxy).2

theorem resolve_with_args (he : c.experiments.get? name = some e) (hl : resolve c name options = .ok l)
    {args : Arguments} {fs : List (String × String)} (hflags : flags name args.entries = .ok fs) :
    resolve { c with experiments := c.experiments.insert name { e with args := some args } } name options =
      .ok { l with args := fs } := by
  rw [resolve_of_get? he] at hl
  obtain ⟨directory, hdirectory, hl⟩ := bind_eq_ok.mp hl
  obtain ⟨bin, hbin, hl⟩ := bind_eq_ok.mp hl
  obtain ⟨oldArgs, -, hl⟩ := bind_eq_ok.mp hl
  obtain ⟨leaderArgs, hleaderArgs, hl⟩ := bind_eq_ok.mp hl
  cases hl
  rw [resolve_of_get? ((Table.get?_insert ..).trans (if_pos rfl))]
  simp only [hdirectory, hbin, hleaderArgs, Option.getD_some, hflags, Bind.bind, Except.bind]
  rfl

/-- An override gives an argument of a launch, whose configured name is a text that can be the name of an override, the
value that it has in the launch. -/
def Restates (e : Experiment) (l : Launch) (raw : String) : Prop :=
  ∃ (i : Nat) (key : String) (v : Value) (f : String × String),
    (e.args.getD .empty).entries[i]? = some (.text key, v) ∧ l.args[i]? = some f ∧ raw = f.1 ++ "=" ++ f.2 ∧
    ¬ Text.Blank key.toList ∧ Text.trimmed key = key ∧ '=' ∉ key.toList

theorem Restates.arguments {raw : String} (hflags : flags name (e.args.getD .empty).entries = .ok l.args)
    (h : Restates e l raw) : (e.args.getD .empty).Restates raw := by
  obtain ⟨i, key, v, f, hentry, hf, rfl, hblank, htrimmed, hfree⟩ := h
  obtain ⟨f', hf', hkey, hvalue⟩ := getElem?_of_flags hflags hentry
  obtain rfl : f' = f := Option.some.inj (hf'.symm.trans hf)
  obtain rfl : key = f'.1 := Option.some.inj hkey
  have hname : f'.1 ≠ "" := fun hempty => hblank (by rw [hempty]; exact nofun)
  refine ⟨f'.1, f'.2, List.mem_map.mpr ⟨_, List.mem_of_getElem? hentry, ?_⟩, f'.1, rfl, hfree, htrimmed, hname⟩
  rw [hvalue]

/-- **Overrides and launches.**  If an experiment can be launched, then it can be launched with any overrides that are
accepted, and the launch differs in its arguments at most.  Overrides that give arguments of the launch the values that
they have there, by any of the names that can stand in an override, are accepted, however many there are and in
whatever order they come, and with them the launch is the same, each host's command line with it. -/
theorem overridden_launch (he : c.experiments.get? name = some e) (hl : resolve c name options = .ok l) :
    (∀ overrides d, c.withOverrides name overrides = .ok d → ∃ args, resolve d name options = .ok { l with args }) ∧
    ∀ overrides, (∀ raw ∈ overrides, Restates e l raw) →
      ∃ d, c.withOverrides name overrides = .ok d ∧ resolve d name options = .ok l := by
  obtain ⟨e', he', -, -, hargs, -⟩ := parts_of_resolve hl
  obtain rfl : e = e' := Option.some.inj (he.symm.trans he')
  refine ⟨fun overrides d hd => ?accepted, fun overrides hrestates => ?restated⟩
  case accepted =>
    have hoverridden := Config.overridden_of_withOverrides hd
    by_cases hnone : overrides = []
    · rw [hoverridden.unchanged hnone]
      exact ⟨l.args, hl⟩
    · obtain ⟨e', args, he', hoverrides, rfl⟩ := hoverridden.changed hnone
      obtain rfl : e = e' := Option.some.inj (he.symm.trans he')
      have hshown := Arguments.canBeShown_overrideAll ((exists_flags name).mp ⟨_, hargs⟩) hoverrides
      obtain ⟨fs, hfs⟩ := (exists_flags name).mpr hshown
      exact ⟨fs, resolve_with_args he hl hfs⟩
  case restated =>
    obtain ⟨args, hoverrides, hdisplay⟩ :=
      Arguments.overrideAll_restates fun raw hraw => (hrestates raw hraw).arguments hargs
    have hexperiment : c.experiment name = .ok e := by simp only [Config.experiment, he]
    by_cases hnone : overrides = []
    · exact ⟨c, by simp only [Config.withOverrides, hexperiment, if_pos hnone], hl⟩
    · refine ⟨_, by simp only [Config.withOverrides, hexperiment, if_neg hnone, hoverrides]; rfl, ?_⟩
      exact resolve_with_args he hl ((flags_of_display hdisplay).trans hargs)

/-- A configuration with arguments that are a boolean, nothing and a number. -/
def kindsConfig : Config :=
  let e : Experiment :=
    { binDirectory := some "/opt", bin := some "bench", leader := none, leaderCommand := none, leaderDelay := none
      leaderPort := none, leaderArgs := .empty
      args := some (((Arguments.empty.set "warm" (.bool true)).set "seed" .null).set "threads" (.number (.integer 8))) }
  { common := { access := ⟨"ssh", "ann"⟩, loginShell := "bash -l", logDirectory := ⟨"logs"⟩ }
    sync := none, dataDirectory := none, domains := .empty, experiments := .ofList [("kinds", e)] }

theorem overridden_launch_sample :
    ∃ e l, kindsConfig.experiments.get? "kinds" = some e ∧ resolve kindsConfig "kinds" ⟨none, none, false⟩ = .ok l ∧
      l.args = [("warm", "true"), ("seed", ""), ("threads", "8")] ∧
      (∃ d args, kindsConfig.withOverrides "kinds" ["warm=off", "mode= rw"] = .ok d ∧
        resolve d "kinds" ⟨none, none, false⟩ = .ok { l with args } ∧
        args = [("warm", "false"), ("seed", ""), ("threads", "8"), ("mode", " rw")]) ∧
      (∀ raw ∈ ["threads=8", "seed=", "warm=true", "threads=8"], Restates e l raw) ∧
      ∃ d e' args, kindsConfig.withOverrides "kinds" ["threads=8", "seed=", "warm=true", "threads=8"] = .ok d ∧
        resolve d "kinds" ⟨none, none, false⟩ = .ok l ∧
        d.experiments.get? "kinds" = some e' ∧ e'.args = some args ∧
        args.entries.map (·.2) = [.bool true, .text "", .text "8"] := by
  obtain ⟨e, l, he, hentries, hl, hargs⟩ : ∃ e l, kindsConfig.experiments.get? "kinds" = some e ∧
      (e.args.getD .empty).entries =
        [(.text "warm", .bool true), (.text "seed", .null), (.text "threads", .number (.integer 8))] ∧
      resolve kindsConfig "kinds" ⟨none, none, false⟩ = .ok l ∧
      l.args = [("warm", "true"), ("seed", ""), ("threads", "8")] := ⟨_, _, rfl, rfl, rfl, rfl⟩
  obtain ⟨haccepted, hrestated⟩ := overridden_launch he hl
  have hrestates : ∀ raw ∈ ["threads=8", "seed=", "warm=true", "threads=8"], Restates e l raw := by
    have hwarm : Restates e l "warm=true" :=
      ⟨0, "warm", .bool true, ("warm", "true"), by rw [hentries]; rfl, by rw [hargs]; rfl, rfl, by decide, rfl,
        by decide⟩
    have hseed : Restates e l "seed=" :=
      ⟨1, "seed", .null, ("seed", ""), by rw [hentries]; rfl, by rw [hargs]; rfl, rfl, by decide, rfl, by decide⟩
    have hthreads : Restates e l "threads=8" :=
      ⟨2, "threads", .number (.integer 8), ("threads", "8"), by rw [hentries]; rfl, by rw [hargs]; rfl, rfl, by decide,
        rfl, by decide⟩
    simpa using ⟨hthreads, hseed, hwarm, hthreads⟩
  refine ⟨e, l, he, hl, hargs, ?accepted, hrestates, ?restated⟩
  case accepted =>
    obtain ⟨d, hd, fs, hfs, hshown⟩ : ∃ d, kindsConfig.withOverrides "kinds" ["warm=off", "mode= rw"] = .ok d ∧
        ∃ l', resolve d "kinds" ⟨none, none, false⟩ = .ok l' ∧
          l'.args = [("warm", "false"), ("seed", ""), ("threads", "8"), ("mode", " rw")] := ⟨_, rfl, _, rfl, rfl⟩
    obtain ⟨args, hresolved⟩ := haccepted _ d hd
    rw [hresolved] at hfs
    cases hfs
    exact ⟨d, args, hd, hresolved, hshown⟩
  case restated =>
    obtain ⟨d, hd, hresolved⟩ := hrestated _ hrestates
    obtain ⟨d', hd', e', args, he', hargs', hvalues⟩ : ∃ d',
        kindsConfig.withOverrides "kinds" ["threads=8", "seed=", "warm=true", "threads=8"] = .ok d' ∧
        ∃ e' args, d'.experiments.get? "kinds" = some e' ∧ e'.args = some args ∧
          args.entries.map (·.2) = [.bool true, .text "", .text "8"] := ⟨_, rfl, _, _, rfl, rfl, rfl⟩
    obtain rfl : d = d' := Except.ok.inj (hd.symm.trans hd')
    exact ⟨d, e', args, hd, hresolved, he', hargs', hvalues⟩

end Launch

end Fleet
