import Fleet.Launch
import Fleet.Proofs.Fallible
import Fleet.Proofs.Text
import Mathlib.Data.List.Basic
import Mathlib.Data.List.Forall2
import Mathlib.Data.List.InsertIdx
import Mathlib.Data.List.Nodup

/-!
# The command lines of a launch

A host's command line is cut into what is the same for all hosts and what is not: the host's id, its position, the
ids of the others and, for the leader alone, the arguments of the leader.  From its own part a host can tell the ids
of all hosts in order, which is `topology`.
-/

namespace Fleet

open Yaml (Value)

/-! ### values as texts -/

namespace Yaml.Value

/-- The text that a value is shown as.  Collections and values with a tag are not shown. -/
inductive Shown : Value → String → Prop where
  | null : Shown .null ""
  | yes : Shown (.bool true) "true"
  | no : Shown (.bool false) "false"
  | number (n : Number) : Shown (.number n) n.text
  | text (s : String) : Shown (.text s) s

/-- Whether a value is nothing, a boolean, a number or a text. -/
def IsScalar (v : Value) : Prop := ∃ text, Shown v text

theorem scalarText?_eq_some {v : Value} {text : String} : v.scalarText? = some text ↔ Shown v text := by
  constructor
  · intro h
    unfold scalarText? at h
    split at h
    · cases h
      exact .null
    · rename_i b
      cases h
      cases b with
      | true => exact .yes
      | false => exact .no
    · cases h
      exact .number _
    · cases h
      exact .text _
    · cases h
  · intro h
    cases h <;> rfl

theorem scalarText?_eq_none {v : Value} : v.scalarText? = none ↔ ¬ v.IsScalar := by
  rw [Option.eq_none_iff_forall_ne_some, IsScalar, not_exists]
  simp only [ne_eq, scalarText?_eq_some]

end Yaml.Value

def ShownAs (entry : Value × Value) (f : String × String) : Prop := entry.1.Shown f.1 ∧ entry.2.Shown f.2

namespace Launch

theorem resolve_eq_ok {c : Config} {name : String} {options : LaunchOptions} {l : Launch}
    (h : resolve c name options = .ok l) :
    ∃ e directory bin args leaderArgs, c.experiments.get? name = some e ∧
      part name "bin_dir" e.binDirectory = .ok directory ∧ part name "bin" (options.bin <|> e.bin) = .ok bin ∧
      flags name (e.args.getD .empty).entries = .ok args ∧ flags name e.leaderArgs.entries = .ok leaderArgs ∧
      l = { experiment := name, binary := ((Path.mk directory).child bin).text, args, leaderArgs
            leader := leaderOf e, outfile := options.outfile, asRoot := options.asRoot, barrier := barrierOf e } := by
  unfold resolve at h
  obtain ⟨e, he, h⟩ := bind_eq_ok.1 h
  obtain ⟨directory, hdirectory, h⟩ := bind_eq_ok.1 h
  obtain ⟨bin, hbin, h⟩ := bind_eq_ok.1 h
  obtain ⟨args, hargs, h⟩ := bind_eq_ok.1 h
  obtain ⟨leaderArgs, hleaderArgs, h⟩ := bind_eq_ok.1 h
  cases h
  unfold Config.experiment at he
  split at he
  · rename_i e' he'
    cases he
    exact ⟨e, directory, bin, args, leaderArgs, he', hdirectory, hbin, hargs, hleaderArgs, rfl⟩
  · cases he

theorem parts_of_resolve {c : Config} {name : String} {options : LaunchOptions} {l : Launch}
    (h : resolve c name options = .ok l) :
    ∃ e, c.experiments.get? name = some e ∧ l.experiment = name ∧ l.leader = leaderOf e ∧
      flags name (e.args.getD .empty).entries = .ok l.args ∧ flags name e.leaderArgs.entries = .ok l.leaderArgs := by
  obtain ⟨e, directory, bin, args, leaderArgs, he, -, -, hargs, hleaderArgs, rfl⟩ := resolve_eq_ok h
  exact ⟨e, he, rfl, rfl, hargs, hleaderArgs⟩

theorem resolve_experiment {c : Config} {name : String} {options : LaunchOptions} {l : Launch}
    (h : resolve c name options = .ok l) : l.experiment = name := by
  obtain ⟨e, -, hname, -⟩ := parts_of_resolve h
  exact hname

theorem leader_of_resolve {c : Config} {name : String} {options : LaunchOptions} {l : Launch}
    (h : resolve c name options = .ok l) :
    ∃ e, c.experiments.get? name = some e ∧ l.leader = leaderOf e ∧
      flags name e.leaderArgs.entries = .ok l.leaderArgs := by
  obtain ⟨e, he, -, hleader, -, hleaderArgs⟩ := parts_of_resolve h
  exact ⟨e, he, hleader, hleaderArgs⟩

section
variable {name : String} {entry : Value × Value} {entries : List (Value × Value)}

theorem flag_eq_ok {f : String × String} : flag name entry = .ok f ↔ ShownAs entry f := by
  unfold flag ShownAs
  rw [← Value.scalarText?_eq_some, ← Value.scalarText?_eq_some]
  cases entry.1.scalarText? <;> cases entry.2.scalarText? <;> simp [Prod.ext_iff]

theorem flags_eq_ok {fs : List (String × String)} : flags name entries = .ok fs ↔ List.Forall₂ ShownAs entries fs := by
  induction entries generalizing fs with
  | nil => cases fs <;> simp [flags]
  | cons entry rest ih =>
    rw [flags]
    cases hentry : flag name entry with
    | error reason =>
      refine iff_of_false nofun fun h => ?_
      cases h with
      | cons hf _ =>
        rw [flag_eq_ok.mpr hf] at hentry
        cases hentry
    | ok f =>
      have hshown : ∀ f', ShownAs entry f' ↔ f = f' := fun f' => by
        rw [← Except.ok.injEq, ← hentry]
        exact flag_eq_ok.symm
      cases hrest : flags name rest with
      | error fault =>
        refine iff_of_false nofun fun h => ?_
        cases h with
        | cons _ hfs =>
          rw [ih.mpr hfs] at hrest
          cases hrest
      | ok others =>
        have hothers : ∀ fs', List.Forall₂ ShownAs rest fs' ↔ others = fs' := fun fs' => by
          rw [← ih, hrest, Except.ok.injEq]
        cases fs with
        | nil => simp
        | cons f' fs' => simp [hshown, hothers]

theorem map_flags {fs : List (String × String)} (h : flags name entries = .ok fs) :
    entries.map (fun e => (e.1.scalarText?, e.2.scalarText?)) = fs.map fun f => (some f.1, some f.2) := by
  rw [flags_eq_ok] at h
  induction h with
  | nil => rfl
  | cons hf _ ih =>
    rw [List.map_cons, List.map_cons, ih, Value.scalarText?_eq_some.mpr hf.1, Value.scalarText?_eq_some.mpr hf.2]

end

/-! ### the parts of a command line -/

/-- What every command line of a launch begins with. -/
def opening (l : Launch) : String :=
  (if l.asRoot then "sudo " else "") ++ l.binary ++ " " ++ String.join (l.args.map fun f => flagText f ++ " ")

/-- The leader's arguments on its command line. -/
def leaderText (l : Launch) : String :=
  String.join (l.leaderArgs.map fun f => " " ++ flagText f)

/-- What every command line of a launch ends with. -/
def closing (l : Launch) : String :=
  match l.outfile with
  | some file => " &>" ++ file
  | none => ""

theorem command_eq (l : Launch) (active : List Host) (id : String) (position : Nat) (asLeader : Bool) :
    l.command active id position asLeader =
      l.opening ++ "--hostname=" ++ id ++ " --host_id=" ++ toString position ++
        " --remotes=" ++ String.intercalate "," (peers active id) ++
        (if asLeader then l.leaderText else "") ++ l.closing := by
  have hflags : String.intercalate " " (l.hostFlags active id position asLeader) =
      String.join (l.args.map fun f => flagText f ++ " ") ++
        ("--hostname=" ++ id ++ (" " ++ ("--host_id=" ++ toString position) ++
          (" " ++ ("--remotes=" ++ String.intercalate "," (peers active id)) ++
            if asLeader then l.leaderText else ""))) := by
    unfold hostFlags
    rw [List.append_assoc, List.cons_append, Text.intercalate_append_cons, Text.intercalate_cons, List.map_map]
    cases asLeader <;> simp [leaderText, Function.comp_def]
  have hhost : " " ++ "--host_id=" = " --host_id=" := rfl
  have hremotes : " " ++ "--remotes=" = " --remotes=" := rfl
  change (if l.asRoot then "sudo " else "") ++ l.binary ++ " " ++
    String.intercalate " " (l.hostFlags active id position asLeader) ++ l.closing = _
  rw [hflags, opening, ← hhost, ← hremotes]
  simp only [String.append_assoc]

/-! ### what a host makes of it -/

/-- The other hosts, as a host reads them off its command line. -/
def readPeers (remotes : String) : List String :=
  if remotes = "" then [] else Text.split ',' remotes

/-- The hosts in their order, as a host puts them together from its command line: the others, and itself at its own
position. -/
def topology (remotes id : String) (position : Nat) : List String :=
  (readPeers remotes).insertIdx position id

theorem readPeers_intercalate {ids : List String} (h : ∀ id ∈ ids, id ≠ "" ∧ ',' ∉ id.toList) :
    readPeers (String.intercalate "," ids) = ids := by
  have hempty : String.intercalate "," ids = "" ↔ ids = [] :=
    Text.intercalate_eq_empty fun id hid => (h id hid).1
  unfold readPeers
  by_cases hids : ids = []
  · rw [if_pos (hempty.2 hids), hids]
  · rw [if_neg fun hjoin => hids (hempty.1 hjoin)]
    exact Text.split_intercalate hids fun id hid => (h id hid).2

theorem peers_eq_eraseIdx {active : List Host} {id : String} {i : Nat} (hd : (active.map (·.id)).Nodup)
    (hi : (active.map (·.id))[i]? = some id) : peers active id = (active.map (·.id)).eraseIdx i := by
  obtain ⟨hlt, rfl⟩ := List.getElem?_eq_some_iff.1 hi
  calc peers active (active.map (·.id))[i]
      = (active.map (·.id)).filter (· != (active.map (·.id))[i]) := by
        rw [peers, List.filter_map]
        rfl
    _ = (active.map (·.id)).erase (active.map (·.id))[i] := (hd.erase_eq_filter _).symm
    _ = (active.map (·.id)).eraseIdx i := hd.erase_getElem i hlt

theorem topology_peers {active : List Host} {id : String} {i : Nat} (hd : (active.map (·.id)).Nodup)
    (hids : ∀ x ∈ active.map (·.id), x ≠ "" ∧ ',' ∉ x.toList) (hi : (active.map (·.id))[i]? = some id) :
    topology (String.intercalate "," (peers active id)) id i = active.map (·.id) := by
  have hpeers : ∀ x ∈ peers active id, x ≠ "" ∧ ',' ∉ x.toList := by
    intro x hx
    rw [peers_eq_eraseIdx hd hi] at hx
    exact hids x ((List.eraseIdx_sublist _ i).subset hx)
  rw [topology, readPeers_intercalate hpeers, peers_eq_eraseIdx hd hi]
  obtain ⟨hlt, rfl⟩ := List.getElem?_eq_some_iff.1 hi
  exact List.insertIdx_eraseIdx_getElem hlt

end Launch

end Fleet
