import Fleet.Proofs.Launch

/-!
# What an experiment needs to be launched

An experiment is resolved part by part, and the first part that is missing or cannot be shown on a command line is the
fault.  Both sides are said here without the order of the steps in which they are worked out: what a complete experiment
has (`Experiment.Complete`), and what the first obstacle is otherwise (`Refused`).  `resolve_outcome` puts them together
with what a launch then holds.
-/

namespace Fleet

open Yaml (Value)

/-! ### arguments that cannot be shown -/

/-- Whether an argument has a name and a value that can be shown. -/
def CanBeShown (entry : Value × Value) : Prop := entry.1.IsScalar ∧ entry.2.IsScalar

/-- What is wrong with an argument that cannot be shown.  Its value is only looked at if its name can be shown. -/
inductive Offends (experiment : String) : Value × Value → RequestFault → Prop where
  | name {key value : Value} (h : ¬ key.IsScalar) : Offends experiment (key, value) (.argumentName experiment)
  | value {key value : Value} {text : String} (hkey : key.Shown text) (h : ¬ value.IsScalar) :
      Offends experiment (key, value) (.argumentValue text experiment)

/-- What is wrong with the first argument that cannot be shown. -/
def FirstOffends (experiment : String) (entries : List (Value × Value)) (reason : RequestFault) : Prop :=
  ∃ before entry after, entries = before ++ entry :: after ∧ (∀ x ∈ before, CanBeShown x) ∧
    Offends experiment entry reason

namespace Launch

variable {c : Config} {name : String} {options : LaunchOptions} {e : Experiment} {entry : Value × Value}
  {entries : List (Value × Value)}

theorem flag_eq_error {reason : RequestFault} : flag name entry = .error reason ↔ Offends name entry reason := by
  obtain ⟨key, value⟩ := entry
  constructor
  · intro h
    unfold flag at h
    split at h
    · rename_i hkey
      cases h
      exact .name (Value.scalarText?_eq_none.mp hkey)
    · rename_i text hkey hvalue
      cases h
      exact .value (Value.scalarText?_eq_some.mp hkey) (Value.scalarText?_eq_none.mp hvalue)
    · cases h
  · intro h
    cases h with
    | name h => simp [flag, Value.scalarText?_eq_none.mpr h]
    | value hkey h => simp [flag, Value.scalarText?_eq_some.mpr hkey, Value.scalarText?_eq_none.mpr h]

theorem flags_eq_error {fault : Fault} :
    flags name entries = .error fault ↔
      ∃ reason, FirstOffends name entries reason ∧ fault = .invalidRequest reason := by
  constructor
  · intro h
    induction entries with
    | nil => cases h
    | cons first rest ih =>
      rw [flags] at h
      split at h
      · rename_i reason hreason
        cases h
        exact ⟨reason, ⟨[], first, rest, rfl, by simp, flag_eq_error.mp hreason⟩, rfl⟩
      · rename_i f hf
        split at h
        · cases h
        · rename_i hrest
          cases h
          obtain ⟨reason, ⟨before, entry, after, rfl, hbefore, hentry⟩, hfault⟩ := ih hrest
          have hfirst : CanBeShown first := ⟨⟨_, (flag_eq_ok.mp hf).1⟩, _, (flag_eq_ok.mp hf).2⟩
          exact ⟨reason, ⟨first :: before, entry, after, rfl, List.forall_mem_cons.mpr ⟨hfirst, hbefore⟩, hentry⟩,
            hfault⟩
  · rintro ⟨reason, ⟨before, entry, after, rfl, hbefore, hentry⟩, rfl⟩
    induction before with
    | nil => simp only [List.nil_append, flags, flag_eq_error.mpr hentry]
    | cons first rest ih =>
      obtain ⟨⟨⟨key, hkey⟩, value, hvalue⟩, hrest⟩ := List.forall_mem_cons.mp hbefore
      have hfirst : flag name first = .ok (key, value) := flag_eq_ok.mpr ⟨hkey, hvalue⟩
      rw [List.cons_append, flags, hfirst]
      simp only [ih hrest]

theorem exists_flags (name : String) : (∃ fs, flags name entries = .ok fs) ↔ ∀ entry ∈ entries, CanBeShown entry := by
  constructor
  · rintro ⟨fs, hfs⟩
    rw [flags_eq_ok] at hfs
    induction hfs with
    | nil => simp
    | cons hf _ ih => exact List.forall_mem_cons.mpr ⟨⟨⟨_, hf.1⟩, _, hf.2⟩, ih⟩
  · intro h
    cases hflags : flags name entries with
    | ok fs => exact ⟨fs, rfl⟩
    | error fault =>
      obtain ⟨reason, ⟨before, entry, after, rfl, -, hentry⟩, -⟩ := flags_eq_error.mp hflags
      obtain ⟨hkey, hvalue⟩ := h entry (by simp)
      cases hentry with
      | name hnone => exact absurd hkey hnone
      | value _ hnone => exact absurd hvalue hnone

end Launch

/-! ### complete experiments -/

/-- An experiment has all that it needs to be launched. -/
structure Experiment.Complete (e : Experiment) (options : LaunchOptions) : Prop where
  directory : e.binDirectory ≠ none
  bin : options.bin ≠ none ∨ e.bin ≠ none
  args : ∀ args, e.args = some args → ∀ entry ∈ args.entries, CanBeShown entry
  leaderArgs : ∀ entry ∈ e.leaderArgs.entries, CanBeShown entry

namespace Launch

variable {c : Config} {name : String} {options : LaunchOptions} {e : Experiment}

/-- The first obstacle to the launch of an experiment: whatever comes before it is in order. -/
inductive Refused (c : Config) (name : String) (options : LaunchOptions) : Fault → Prop where
  | undeclared (h : c.experiments.get? name = none) :
      Refused c name options (.missingExperimentConfig name ("experiments." ++ name))
  | directory {e : Experiment} (he : c.experiments.get? name = some e) (h : e.binDirectory = none) :
      Refused c name options (.missingExperimentConfig name ("experiments." ++ name ++ ".bin_dir"))
  | bin {e : Experiment} (he : c.experiments.get? name = some e) (hdirectory : e.binDirectory ≠ none)
      (hoption : options.bin = none) (h : e.bin = none) :
      Refused c name options (.missingExperimentConfig name ("experiments." ++ name ++ ".bin"))
  | args {e : Experiment} {args : Arguments} {reason : RequestFault} (he : c.experiments.get? name = some e)
      (hdirectory : e.binDirectory ≠ none) (hbin : options.bin ≠ none ∨ e.bin ≠ none) (hargs : e.args = some args)
      (h : FirstOffends name args.entries reason) : Refused c name options (.invalidRequest reason)
  | leaderArgs {e : Experiment} {reason : RequestFault} (he : c.experiments.get? name = some e)
      (hdirectory : e.binDirectory ≠ none) (hbin : options.bin ≠ none ∨ e.bin ≠ none)
      (hargs : ∀ args, e.args = some args → ∀ entry ∈ args.entries, CanBeShown entry)
      (h : FirstOffends name e.leaderArgs.entries reason) : Refused c name options (.invalidRequest reason)

theorem missing_undeclared (name : String) :
    Config.missing name none = .missingExperimentConfig name ("experiments." ++ name) := by
  simp [Config.missing]

theorem missing_part (name key : String) :
    Config.missing name (some key) = .missingExperimentConfig name ("experiments." ++ name ++ ("." ++ key)) := by
  simp [Config.missing, String.append_assoc]

theorem part_eq_ok {key text : String} {value : Option String} :
    part name key value = .ok text ↔ value = some text := by
  cases value <;> simp [part]

theorem part_eq_error {key : String} {value : Option String} {fault : Fault} :
    part name key value = .error fault ↔ value = none ∧ fault = Config.missing name (some key) := by
  cases value <;> simp [part, eq_comm]

theorem resolve_of_get? (he : c.experiments.get? name = some e) :
    resolve c name options =
      part name "bin_dir" e.binDirectory >>= fun directory =>
      part name "bin" (options.bin <|> e.bin) >>= fun bin =>
      flags name (e.args.getD .empty).entries >>= fun args =>
      flags name e.leaderArgs.entries >>= fun leaderArgs =>
      .ok { experiment := name, binary := ((Path.mk directory).child bin).text, args, leaderArgs
            leader := leaderOf e, outfile := options.outfile, asRoot := options.asRoot, barrier := barrierOf e } := by
  have hexperiment : c.experiment name = .ok e := by simp only [Config.experiment, he]
  rw [resolve, hexperiment]
  rfl

theorem orElse_ne_none {a b : Option String} : (a <|> b) ≠ none ↔ a ≠ none ∨ b ≠ none := by
  cases a <;> simp

theorem getD_args_iff {p : Value × Value → Prop} :
    (∀ entry ∈ (e.args.getD .empty).entries, p entry) ↔
      ∀ args, e.args = some args → ∀ entry ∈ args.entries, p entry := by
  cases e.args with
  | none => simp [Arguments.empty]
  | some args => simp

theorem exists_resolve (he : c.experiments.get? name = some e) :
    (∃ l, resolve c name options = .ok l) ↔ e.Complete options := by
  rw [resolve_of_get? he]
  simp only [bind_eq_ok, part_eq_ok]
  constructor
  · rintro ⟨l, directory, hdirectory, bin, hbin, args, hargs, leaderArgs, hleaderArgs, -⟩
    exact {
      directory := by simp [hdirectory]
      bin := orElse_ne_none.mp (by simp [hbin])
      args := getD_args_iff.mp ((exists_flags name).mp ⟨args, hargs⟩)
      leaderArgs := (exists_flags name).mp ⟨leaderArgs, hleaderArgs⟩ }
  · intro h
    obtain ⟨directory, hdirectory⟩ := Option.ne_none_iff_exists'.mp h.directory
    obtain ⟨bin, hbin⟩ := Option.ne_none_iff_exists'.mp (orElse_ne_none.mpr h.bin)
    obtain ⟨args, hargs⟩ := (exists_flags name).mpr (getD_args_iff.mpr h.args)
    obtain ⟨leaderArgs, hleaderArgs⟩ := (exists_flags name).mpr h.leaderArgs
    exact ⟨_, directory, hdirectory, bin, hbin, args, hargs, leaderArgs, hleaderArgs, rfl⟩

theorem resolve_eq_error {fault : Fault} : resolve c name options = .error fault ↔ Refused c name options fault := by
  cases he : c.experiments.get? name with
  | none =>
    have hrefused : resolve c name options = .error (Config.missing name none) := by
      rw [resolve, Config.experiment, he]
      rfl
    rw [hrefused, missing_undeclared, Except.error.injEq]
    constructor
    · rintro rfl
      exact .undeclared he
    · intro h
      cases h with
      | undeclared => rfl
      | directory he' | bin he' | args he' | leaderArgs he' => simp [he] at he'
  | some e =>
    rw [resolve_of_get? he]
    simp only [bind_eq_error, part_eq_ok, part_eq_error, missing_part, reduceCtorEq, and_false, exists_false, or_false]
    constructor
    · rintro (⟨hdirectory, rfl⟩ |
        ⟨directory, hdirectory, ⟨hbin, rfl⟩ | ⟨bin, hbin, hargs | ⟨args, hargs, hleaderArgs⟩⟩⟩)
      · exact .directory he hdirectory
      · obtain ⟨hoption, hnone⟩ : options.bin = none ∧ e.bin = none := by simpa using hbin
        exact .bin he (by simp [hdirectory]) hoption hnone
      · obtain ⟨reason, hreason, rfl⟩ := flags_eq_error.mp hargs
        cases hsome : e.args with
        | none =>
          obtain ⟨before, entry, after, hentries, -⟩ := hreason
          simp [hsome, Arguments.empty] at hentries
        | some args =>
          rw [hsome] at hreason
          exact .args he (by simp [hdirectory]) (orElse_ne_none.mp (by simp [hbin])) hsome hreason
      · obtain ⟨reason, hreason, rfl⟩ := flags_eq_error.mp hleaderArgs
        exact .leaderArgs he (by simp [hdirectory]) (orElse_ne_none.mp (by simp [hbin]))
          (getD_args_iff.mp ((exists_flags name).mp ⟨args, hargs⟩)) hreason
    · intro h
      cases h with
      | undeclared hnone => simp [he] at hnone
      | directory he' h =>
        cases he.symm.trans he'
        exact .inl ⟨h, rfl⟩
      | bin he' hdirectory hoption h =>
        cases he.symm.trans he'
        obtain ⟨directory, hdirectory⟩ := Option.ne_none_iff_exists'.mp hdirectory
        exact .inr ⟨directory, hdirectory, .inl ⟨by simp [hoption, h], rfl⟩⟩
      | args he' hdirectory hbin hargs h =>
        cases he.symm.trans he'
        obtain ⟨directory, hdirectory⟩ := Option.ne_none_iff_exists'.mp hdirectory
        obtain ⟨bin, hbin⟩ := Option.ne_none_iff_exists'.mp (orElse_ne_none.mpr hbin)
        rw [hargs]
        exact .inr ⟨directory, hdirectory, .inr ⟨bin, hbin, .inl (flags_eq_error.mpr ⟨_, h, rfl⟩)⟩⟩
      | leaderArgs he' hdirectory hbin hargs h =>
        cases he.symm.trans he'
        obtain ⟨directory, hdirectory⟩ := Option.ne_none_iff_exists'.mp hdirectory
        obtain ⟨bin, hbin⟩ := Option.ne_none_iff_exists'.mp (orElse_ne_none.mpr hbin)
        obtain ⟨args, hargs⟩ := (exists_flags name).mpr (getD_args_iff.mpr hargs)
        exact .inr ⟨directory, hdirectory, .inr ⟨bin, hbin, .inr ⟨args, hargs, flags_eq_error.mpr ⟨_, h, rfl⟩⟩⟩⟩

/-! ### what is told -/

theorem line_noDefaultArguments (experiment : String) :
    (Notice.noDefaultArguments experiment).line =
      "WARN no default arguments configured for experiment " ++ experiment := by
  have hline : (Notice.noDefaultArguments experiment).line =
    "WARN" ++ " " ++ ("no default arguments configured for experiment " ++ experiment) := rfl
  have hbegin : "WARN" ++ " " ++ "no default arguments configured for experiment " =
    "WARN no default arguments configured for experiment " := rfl
  rw [hline, ← hbegin]
  simp only [String.append_assoc]

theorem notices_of_get? (he : c.experiments.get? name = some e) :
    (notices c name).map Notice.line =
      if e.args.isNone then ["WARN no default arguments configured for experiment " ++ name] else [] := by
  rw [notices, he]
  by_cases hnone : e.args.isNone = true
  · simp only [if_pos hnone, List.map_cons, List.map_nil, line_noDefaultArguments]
  · simp only [if_neg hnone, List.map_nil]

/-- **What an experiment needs to be launched.**  It is resolved exactly if it is declared and complete, and otherwise
the fault is the first obstacle.  A launch has the arguments and the leader's arguments of its experiment, each shown as
a text and in the order of their declaration; arguments that are not configured are none and are told of once, and
nothing is told otherwise.  It has a leader exactly if both the leader and the command for it are configured. -/
theorem resolve_outcome (c : Config) (name : String) (options : LaunchOptions) :
    ((∃ l, resolve c name options = .ok l) ↔ ∃ e, c.experiments.get? name = some e ∧ e.Complete options) ∧
    (∀ fault, resolve c name options = .error fault ↔ Refused c name options fault) ∧
    ∀ l, resolve c name options = .ok l → ∃ e, c.experiments.get? name = some e ∧
      (∀ args, e.args = some args → List.Forall₂ ShownAs args.entries l.args) ∧ (e.args = none → l.args = []) ∧
      List.Forall₂ ShownAs e.leaderArgs.entries l.leaderArgs ∧
      (notices c name).map Notice.line =
        (if e.args.isNone then ["WARN no default arguments configured for experiment " ++ name] else []) ∧
      ∀ id command, l.leader = some ⟨id, command⟩ ↔ e.leader = some id ∧ e.leaderCommand = some command := by
  refine ⟨⟨fun ⟨l, hl⟩ => ?_, fun ⟨e, he, hcomplete⟩ => (exists_resolve he).mpr hcomplete⟩, fun _ => resolve_eq_error,
    fun l hl => ?_⟩
  · obtain ⟨e, he, -⟩ := parts_of_resolve hl
    exact ⟨e, he, (exists_resolve he).mp ⟨l, hl⟩⟩
  · obtain ⟨e, he, -, hleader, hargs, hleaderArgs⟩ := parts_of_resolve hl
    rw [flags_eq_ok] at hargs hleaderArgs
    refine ⟨e, he, fun args hsome => ?_, fun hnone => ?_, hleaderArgs, notices_of_get? he, fun id command => ?_⟩
    · rwa [hsome] at hargs
    · rw [hnone] at hargs
      exact List.forall₂_nil_left_iff.mp hargs
    · rw [hleader, leaderOf]
      cases e.leader <;> cases e.leaderCommand <;> simp

/-- A configuration with an experiment that lacks a program and arguments, and with one whose arguments cannot all be
shown. -/
def patchyConfig : Config :=
  let bare : Experiment :=
    { binDirectory := some "/opt", bin := none, leader := some "a", leaderCommand := none, leaderDelay := none
      leaderPort := none, args := none, leaderArgs := (Arguments.empty.set "warm" (.bool true)).set "seed" .null }
  let nested : Arguments :=
    ⟨[(.text "mode", .text "rw"), (.number (.integer 10), .sequence []), (.tagged "t" .null, .null)], by
      simp [Value.Distinct, Value.same]⟩
  { common := { access := ⟨"ssh", "ann"⟩, loginShell := "bash -l", logDirectory := ⟨"logs"⟩ }
    sync := none, dataDirectory := none, domains := .empty
    experiments := .ofList [("bare", bare), ("nested", { bare with bin := some "run", args := some nested })] }

theorem resolve_outcome_sample :
    resolve patchyConfig "ghost" ⟨none, none, false⟩ = .error (.missingExperimentConfig "ghost" "experiments.ghost") ∧
    resolve patchyConfig "bare" ⟨none, none, false⟩ = .error (.missingExperimentConfig "bare" "experiments.bare.bin") ∧
    resolve patchyConfig "nested" ⟨none, none, false⟩ = .error (.invalidRequest (.argumentValue "10" "nested")) ∧
    ∃ e l, patchyConfig.experiments.get? "bare" = some e ∧ e.Complete ⟨some "tool", none, true⟩ ∧
      resolve patchyConfig "bare" ⟨some "tool", none, true⟩ = .ok l ∧ l.args = [] ∧
      (notices patchyConfig "bare").map Notice.line = ["WARN no default arguments configured for experiment bare"] ∧
      l.leaderArgs = [("warm", "true"), ("seed", "")] ∧ List.Forall₂ ShownAs e.leaderArgs.entries l.leaderArgs ∧
      e.leader = some "a" ∧ ∀ command, l.leader ≠ some ⟨"a", command⟩ := by
  have hfails := fun name options => (resolve_outcome patchyConfig name options).2.1
  refine ⟨(hfails ..).mpr (.undeclared rfl), (hfails ..).mpr (.bin rfl nofun rfl rfl), (hfails ..).mpr ?_, ?_⟩
  · -- the third argument cannot be shown either, but it is not the first such one
    have hoffends : Offends "nested" (.number (.integer 10), .sequence []) (.argumentValue "10" "nested") :=
      .value (Value.Shown.number (.integer 10)) (by rintro ⟨_, ⟨⟩⟩)
    have hmode : CanBeShown (.text "mode", .text "rw") := ⟨⟨_, .text _⟩, _, .text _⟩
    exact .args rfl nofun (.inr nofun) rfl ⟨[_], _, [_], rfl, by simpa using hmode, hoffends⟩
  · obtain ⟨hneeds, -, hholds⟩ := resolve_outcome patchyConfig "bare" ⟨some "tool", none, true⟩
    obtain ⟨e, l, he, hleader, hcommand, hl, hleaderArgs⟩ : ∃ e l, patchyConfig.experiments.get? "bare" = some e ∧
        e.leader = some "a" ∧ e.leaderCommand = none ∧
        resolve patchyConfig "bare" ⟨some "tool", none, true⟩ = .ok l ∧
        l.leaderArgs = [("warm", "true"), ("seed", "")] := ⟨_, _, rfl, rfl, rfl, rfl, rfl⟩
    obtain ⟨e', he', hcomplete⟩ := hneeds.mp ⟨l, hl⟩
    obtain rfl : e = e' := Option.some.inj (he.symm.trans he')
    obtain ⟨e', he', -, hnone, hshown, hline, hled⟩ := hholds l hl
    obtain rfl : e = e' := Option.some.inj (he.symm.trans he')
    have hargs : e.args = none := by
      cases he
      rfl
    rw [hargs] at hline
    refine ⟨e, l, he, hcomplete, hl, hnone hargs, hline, hleaderArgs, hshown, hleader, fun command h => ?_⟩
    have hsome := ((hled "a" command).mp h).2
    rw [hcommand] at hsome
    cases hsome

end Launch

end Fleet
