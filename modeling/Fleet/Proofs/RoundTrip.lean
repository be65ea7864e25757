import Fleet.Config.Override
import Fleet.Proofs.Outline
import Fleet.Proofs.Yaml.Record

/-!
# The head of a log tells the configuration

What a configuration is written as reads as that configuration (`parse_body_render`).  Each section is a record: a field
is left out of it exactly where reading gives it the value that it then has (`Experiment.read_toValue`,
`Config.read_toValue`).  Of the notation of values only this is assumed, that the value which is written comes back from
its text (`Yaml.ReadsBack`).
-/

namespace Fleet

open Yaml Yaml.Reader

variable {α : Type} {d : Document} {depth : Nat}

/-! ### records -/

theorem optionalField_eq (name : String) (toValue : α → Value) (o : Option α) :
    optionalField name toValue o = keyed (present [(name, o.map toValue)]) := by
  cases o <;> rfl

theorem optionalField_ite (name : String) (v : Value) (b : Bool) :
    (if b then [] else [(Value.text name, v)]) = keyed (present [(name, if b then none else some v)]) := by
  cases b <;> rfl

theorem keyed_present_append (l m : List (String × Option Value)) :
    keyed (present l) ++ keyed (present m) = keyed (present (l ++ m)) := by
  simp [keyed, present]

/-! ### sections -/

theorem Arguments.read_entries (a : Arguments) (h : Means d (depth + 1) (.mapping a.entries)) :
    Arguments.read d (depth + 1) (Value.mapping a.entries).toNode = pure a := by
  rw [Arguments.read, valueEntries_mapping h, pure_bind, Arguments.ofEntries?, dif_pos a.distinct]
  rfl

def CommonSection.slots (s : CommonSection) : List (String × Option Value) :=
  [("ssh", some (.text s.access.ssh)), ("remote_user", some (.text s.access.user)),
    ("login_shell", some (.text s.loginShell)), ("log_dir", some (.text s.logDirectory.text))]

theorem CommonSection.read_toValue (s : CommonSection) :
    CommonSection.read d (depth + 1) s.toValue.toNode = pure s := by
  have hnames : (s.slots.map (·.1)).Nodup := by simp [slots]
  change (fields d (depth + 1) (s.slots.map (·.1)) (Value.mapping (keyed (present s.slots))).toNode >>= _) = _
  rw [fields_keyed hnames (keys_present s.slots), pure_bind]
  have hssh : ("ssh", some (.text s.access.ssh)) ∈ s.slots := by simp [slots]
  have huser : ("remote_user", some (.text s.access.user)) ∈ s.slots := by simp [slots]
  have hshell : ("login_shell", some (.text s.loginShell)) ∈ s.slots := by simp [slots]
  have hlogs : ("log_dir", some (.text s.logDirectory.text)) ∈ s.slots := by simp [slots]
  simp only [orElse_present hnames hssh, required_present hnames huser, orElse_present hnames hshell,
    orElse_present hnames hlogs, Option.elim_some, text_text, pure_bind, map_pure]

/-- The fields of the section that says which files are sent. -/
def SyncSection.slots (s : SyncSection) : List (String × Option Value) :=
  [("src", some (.text s.source.text)), ("dest", some (.text s.destination)),
    ("include_file", some (.text s.includeFile.text)), ("exclude_file", some (.text s.excludeFile.text))]

theorem SyncSection.read_toValue (s : SyncSection) : SyncSection.read d (depth + 1) s.toValue.toNode = pure s := by
  have hnames : (s.slots.map (·.1)).Nodup := by simp [slots]
  change (fields d (depth + 1) (s.slots.map (·.1)) (Value.mapping (keyed (present s.slots))).toNode >>= _) = _
  rw [fields_keyed hnames (keys_present s.slots), pure_bind]
  have hsource : ("src", some (.text s.source.text)) ∈ s.slots := by simp [slots]
  have hdestination : ("dest", some (.text s.destination)) ∈ s.slots := by simp [slots]
  have hinclude : ("include_file", some (.text s.includeFile.text)) ∈ s.slots := by simp [slots]
  have hexclude : ("exclude_file", some (.text s.excludeFile.text)) ∈ s.slots := by simp [slots]
  simp only [required_present hnames hsource, required_present hnames hdestination, required_present hnames hinclude,
    required_present hnames hexclude, text_text, pure_bind]

theorem Config.readDataSection_dataValue (p : Path) :
    Config.readDataSection d (depth + 1) (Config.dataValue p).toNode = pure p := by
  have hfields : fields d (depth + 1) ["dest"] (Value.mapping (keyed [("dest", .text p.text)])).toNode =
      pure (nodesOf [("dest", .text p.text)], depth) := fields_keyed (by decide) (List.Sublist.refl ["dest"])
  change (fields d (depth + 1) ["dest"] (Value.mapping (keyed [("dest", .text p.text)])).toNode >>= _) = _
  rw [hfields, pure_bind]
  change (Reader.text d (Value.text p.text).toNode >>= fun destination => pure (Path.mk destination)) = _
  rw [text_text, pure_bind]

/-! ### experiments -/

def Experiment.slots (e : Experiment) : List (String × Option Value) :=
  [("bin_dir", e.binDirectory.map .text), ("bin", e.bin.map .text), ("leader", e.leader.map .text),
    ("leader_cmd", e.leaderCommand.map .text), ("leader_delay_ms", e.leaderDelay.map fun n => naturalValue n.toNat),
    ("leader_port", e.leaderPort.map fun n => naturalValue n.toNat), ("args", e.args.map fun a => .mapping a.entries),
    ("leader_args", if e.leaderArgs.entries.isEmpty then none else some (.mapping e.leaderArgs.entries))]

theorem Experiment.toValue_eq (e : Experiment) : e.toValue = .mapping (keyed (present e.slots)) := by
  simp only [Experiment.toValue, optionalField_eq, optionalField_ite, keyed_present_append]
  rfl

theorem Experiment.read_toValue (e : Experiment) (h : Means d (depth + 2) e.toValue) :
    Experiment.read d (depth + 2) e.toValue.toNode = pure e := by
  have hnames : (e.slots.map (·.1)).Nodup := by simp [slots]
  rw [toValue_eq] at h ⊢
  change (fields d (depth + 2) (e.slots.map (·.1)) (Value.mapping (keyed (present e.slots))).toNode >>= _) = _
  rw [fields_keyed hnames (keys_present e.slots), pure_bind]
  have hdelay : orElse (nodesOf (present e.slots)) "leader_delay_ms" none (Reader.optional d fun n =>
      UInt64.ofNat <$> naturalBelow UInt64.size d n) = pure e.leaderDelay := by
    refine orElse_optional hnames (fun n => naturalValue n.toNat) (by simp [slots]) fun n _ => ?_
    rw [naturalValue, optional_natural, naturalBelow_natural n.toNat_lt, map_pure, map_pure, UInt64.ofNat_toNat]
  have hport : orElse (nodesOf (present e.slots)) "leader_port" none (Reader.optional d fun n =>
      UInt16.ofNat <$> naturalBelow UInt16.size d n) = pure e.leaderPort := by
    refine orElse_optional hnames (fun n => naturalValue n.toNat) (by simp [slots]) fun n _ => ?_
    rw [naturalValue, optional_natural, naturalBelow_natural n.toNat_lt, map_pure, map_pure, UInt16.ofNat_toNat]
  have hargs : orElse (nodesOf (present e.slots)) "args" none (Reader.optional d (Arguments.read d (depth + 1))) =
      pure e.args := by
    refine orElse_optional hnames (fun a => .mapping a.entries) (by simp [slots]) fun a ha => ?_
    rw [optional_mapping, a.read_entries (means_of_present h "args" (by simp [slots, ha])), map_pure]
  have hleader : orElse (nodesOf (present e.slots)) "leader_args" Arguments.empty (Arguments.read d (depth + 1)) =
      pure e.leaderArgs := by
    refine orElse_ite (b := e.leaderArgs.entries.isEmpty) (v := .mapping e.leaderArgs.entries) hnames (by simp [slots])
      (fun hempty => ?_) fun hentries => ?_
    · exact Arguments.ext (List.isEmpty_iff.mp hempty).symm
    · have hne : e.leaderArgs.entries ≠ [] := List.isEmpty_eq_false_iff.mp hentries
      exact e.leaderArgs.read_entries (means_of_present h "leader_args" (by simp [slots, hne]))
  have hdirectory : ("bin_dir", e.binDirectory.map .text) ∈ e.slots := by simp [slots]
  have hbin : ("bin", e.bin.map .text) ∈ e.slots := by simp [slots]
  have hname : ("leader", e.leader.map .text) ∈ e.slots := by simp [slots]
  have hcommand : ("leader_cmd", e.leaderCommand.map .text) ∈ e.slots := by simp [slots]
  simp only [orElse_text hnames hdirectory, orElse_text hnames hbin, orElse_text hnames hname,
    orElse_text hnames hcommand, hdelay, hport, hargs, hleader, pure_bind]

/-! ### configurations -/

theorem Table.toValue_eq (t : Table α) (toValue : α → Value) :
    t.toValue toValue = .mapping (keyed (t.entries.map fun e => (e.1, toValue e.2))) := by
  rw [Table.toValue, keyed, List.map_map]
  rfl

namespace Config

def slots (c : Config) : List (String × Option Value) :=
  [("common", some c.common.toValue), ("sync", c.sync.map SyncSection.toValue),
    ("get_data", c.dataDirectory.map dataValue),
    ("domains", if c.domains.entries.isEmpty then none else some (c.domains.toValue .text)),
    ("experiments", some (c.experiments.toValue Experiment.toValue))]

theorem toValue_eq (c : Config) : c.toValue = .mapping (keyed (present c.slots)) := by
  have hlast : [(Value.text "experiments", c.experiments.toValue Experiment.toValue)] =
      keyed (present [("experiments", some (c.experiments.toValue Experiment.toValue))]) := rfl
  rw [toValue, hlast]
  simp only [optionalField_eq, optionalField_ite, keyed_present_append]
  rfl

theorem read_toValue (c : Config) (h : Means d maxDepth c.toValue) : read d c.toValue.toNode = pure c := by
  have hnames : (c.slots.map (·.1)).Nodup := by simp [slots]
  rw [toValue_eq] at h ⊢
  change (fields d (127 + 1) (c.slots.map (·.1)) (Value.mapping (keyed (present c.slots))).toNode >>= _) = _
  rw [fields_keyed hnames (keys_present c.slots), pure_bind]
  have hcommon : ("common", some c.common.toValue) ∈ c.slots := by simp [slots]
  have hexperiments : ("experiments", some (c.experiments.toValue Experiment.toValue)) ∈ c.slots := by simp [slots]
  have hsync : orElse (nodesOf (present c.slots)) "sync" none (Reader.optional d (SyncSection.read d 127)) =
      pure c.sync := by
    refine orElse_optional hnames SyncSection.toValue (by simp [slots]) fun s _ => ?_
    exact (optional_mapping _ _).trans (congrArg (some <$> ·) s.read_toValue)
  have hdata : orElse (nodesOf (present c.slots)) "get_data" none (Reader.optional d (readDataSection d 127)) =
      pure c.dataDirectory := by
    refine orElse_optional hnames dataValue (by simp [slots]) fun p _ => ?_
    exact (optional_mapping _ _).trans (congrArg (some <$> ·) (readDataSection_dataValue p))
  have hdomains : orElse (nodesOf (present c.slots)) "domains" [] (textEntries d 127 fun _ => Reader.text d) =
      pure c.domains.entries := by
    refine orElse_ite (b := c.domains.entries.isEmpty) (v := c.domains.toValue .text) hnames (by simp [slots])
      (fun hempty => ?_) fun _ => ?_
    · exact (List.isEmpty_iff.mp hempty).symm
    · rw [Table.toValue_eq]
      exact textEntries_keyed fun e _ => text_text e.2
  have htable : textEntries d 127 (Experiment.read d) (c.experiments.toValue Experiment.toValue).toNode =
      pure c.experiments.entries := by
    have hmeans := means_of_present h "experiments" hexperiments
    rw [Table.toValue_eq]
    refine textEntries_keyed fun e he => e.2.read_toValue ?_
    rw [Table.toValue] at hmeans
    exact (hmeans.entry (.text e.1, e.2.toValue) (List.mem_map.mpr ⟨e, he, rfl⟩)).2
  simp only [required_present hnames hcommon, orElse_present hnames hexperiments, hsync, hdata, hdomains,
    CommonSection.read_toValue, Option.elim_some, htable, pure_bind, Table.ofList_entries]

end Config

/-! ### values of configurations -/

theorem CommonSection.means_toValue (s : CommonSection) : Means d (depth + 1) s.toValue := by
  have hnames : (s.slots.map (·.1)).Nodup := by simp [slots]
  refine means_record hnames ?_
  simp [slots, means_text]

theorem SyncSection.means_toValue (s : SyncSection) : Means d (depth + 1) s.toValue := by
  have hnames : (s.slots.map (·.1)).Nodup := by simp [slots]
  refine means_record hnames ?_
  simp [slots, means_text]

theorem Config.means_dataValue (p : Path) : Means d (depth + 1) (dataValue p) := by
  have hnames : [("dest", Value.text p.text)].map (·.1) |>.Nodup := by simp
  refine means_keyed hnames ?_
  simp [means_text]

theorem Experiment.means_toValue (e : Experiment) (hargs : ∀ a ∈ e.args, Means d (depth + 1) (.mapping a.entries))
    (hleader : Means d (depth + 1) (.mapping e.leaderArgs.entries)) : Means d (depth + 2) e.toValue := by
  have hnames : (e.slots.map (·.1)).Nodup := by simp [slots]
  have htext : ∀ (o : Option String) (v : Value), o.map .text = some v → Means d (depth + 1) v := fun _ =>
    means_optional fun s _ => means_text s
  rw [toValue_eq]
  refine means_record hnames ?_
  simp only [slots, List.forall_mem_cons]
  refine ⟨htext _, htext _, htext _, htext _, ?_, ?_, means_optional hargs, means_ite hleader, by simp⟩
  · exact means_optional fun n _ => means_natural n.toNat_lt_size
  · exact means_optional fun n _ => means_natural (Nat.lt_trans n.toNat_lt_size (by decide))

theorem Table.means_toValue {t : Table α} {toValue : α → Value} (h : ∀ e ∈ t.entries, Means d depth (toValue e.2)) :
    Means d (depth + 1) (t.toValue toValue) := by
  rw [toValue_eq]
  refine means_keyed ?_ fun f hf => ?_
  · rw [List.map_map]
    refine List.pairwise_map.mpr (t.sorted.imp fun {a b} hlt => ?_)
    exact fun heq : a.1 = b.1 => String.lt_irrefl b.1 (heq ▸ hlt)
  · obtain ⟨e, he, rfl⟩ := List.mem_map.mp hf
    exact h e he

/-- **A configuration comes back if the arguments in it do.** -/
theorem Config.means_toValue (c : Config) (hargs : ∀ e ∈ c.experiments.entries,
    (∀ a ∈ e.2.args, Means d 125 (.mapping a.entries)) ∧ Means d 125 (.mapping e.2.leaderArgs.entries)) :
    Means d maxDepth c.toValue := by
  have hnames : (c.slots.map (·.1)).Nodup := by simp [slots]
  rw [toValue_eq]
  change Means d (127 + 1) _
  refine means_record hnames ?_
  simp only [slots, List.forall_mem_cons]
  refine ⟨?_, means_optional fun s _ => s.means_toValue, means_optional fun p _ => means_dataValue p, means_ite ?_, ?_,
    by simp⟩
  · exact fun v hv => Option.some.inj hv ▸ c.common.means_toValue
  · exact Table.means_toValue fun e _ => means_text e.2
  · exact fun v hv => Option.some.inj hv ▸ Table.means_toValue fun e he =>
      e.2.means_toValue (hargs e he).1 (hargs e he).2

/-! ### the head of a log -/

def afterFirstLine (s : String) : String := String.ofList ((s.toList.dropWhile (· ≠ '\n')).drop 1)

theorem afterFirstLine_title (body : String) : afterFirstLine ("Configuration:\n" ++ body) = body := by
  unfold afterFirstLine
  refine String.toList_inj.mp ?_
  simp

theorem Config.body_render (c : Config) : afterFirstLine c.render =
    if c.toValue.isWritable then c.toValue.toNode.write else c.outline.text ++ "\n" :=
  afterFirstLine_title _

/-- **The head of a log tells the configuration**: behind its title is a text that reads as the configuration, whatever
has been configured and overridden, if its value can be written and comes back from its text.  Otherwise the text is
an outline, which cannot be read. -/
theorem Config.parse_body_render (explain : String → String) (path : Path) (c : Config)
    (hback : c.toValue.isWritable → ReadsBack c.toValue) :
    Config.parse explain path (afterFirstLine c.render) =
      if c.toValue.isWritable then .ok c
      else .error (.unreadableConfig path (explain (afterFirstLine c.render))) := by
  rw [c.body_render]
  split
  · rename_i hwritable
    obtain ⟨d, hparse, hroot, hvalue⟩ := hback hwritable
    have hread : ofDocument? d = some c := by
      rw [ofDocument?, Reader.run, hroot, c.read_toValue (means_of_run hroot hvalue)]
      rfl
    rw [Config.parse, hparse, Option.bind_some, hread]
  · exact c.parse_outline explain path

/-! ### checked by evaluation -/

/-- A configuration with one experiment, which has the given arguments. -/
def sampleBench (args : Arguments) : Config where
  common := ⟨⟨Config.defaultSsh, "alice"⟩, Config.defaultLoginShell, Config.defaultLogDirectory⟩
  sync := none
  dataDirectory := none
  domains := .empty
  experiments := .ofList [("bench",
    { binDirectory := none, bin := some "bench", leader := none, leaderCommand := none, leaderDelay := none
      leaderPort := some 7, args := some args, leaderArgs := .empty })]

theorem Config.parse_body_render_sample :
    ∃ c, (sampleBench (Arguments.empty.set "warm" (.bool true))).withOverrides "bench" ["runs=30"] = .ok c ∧
      (c.toValue.isWritable → ReadsBack c.toValue) ∧
      Config.parse id ⟨"rexec.yaml"⟩ (afterFirstLine c.render) = .ok c := by
  let args : Arguments := (Arguments.empty.set "warm" (.bool true)).set "runs" (.text "30")
  have hmeans : ∀ d, Means d maxDepth (sampleBench args).toValue := by
    refine fun d => Config.means_toValue _ fun e he => ?_
    obtain rfl := List.mem_singleton.mp he
    have hargs : Means d (124 + 1) (.mapping (keyed [("warm", .bool true), ("runs", .text "30")])) :=
      means_keyed (by decide) (by simp [means_bool, means_text])
    have hleader : Means d (124 + 1) (.mapping (keyed [])) := means_keyed (by decide) (by simp)
    exact ⟨fun a ha => Option.some.inj ha ▸ hargs, hleader⟩
  have hback : ReadsBack (sampleBench args).toValue := readsBack_of_same (by decide +kernel) hmeans
  have hwritable : (sampleBench args).toValue.isWritable := by decide +kernel
  exact ⟨_, rfl, fun _ => hback, (Config.parse_body_render _ _ _ fun _ => hback).trans (if_pos hwritable)⟩

/-- A configuration whose only argument has a name with a tag. -/
def taggedText : String :=
  "common:\n  remote_user: alice\nexperiments:\n  e:\n    bin_dir: /opt/x\n    bin: tool\n    args: \x7b!t x: c\x7d\n"

/-- **A tag can hide a configuration** from the head of a log. -/
theorem Config.hidden_head :
    ∃ c, Config.parse id ⟨"rexec.yaml"⟩ taggedText = .ok c ∧
      Config.parse id ⟨"rexec.yaml"⟩ (afterFirstLine c.render) =
        .error (.unreadableConfig ⟨"rexec.yaml"⟩ (afterFirstLine c.render)) := by
  have hany : (Config.parse id ⟨"rexec.yaml"⟩ taggedText).toOption.any (!·.toValue.isWritable) := by decide +kernel
  have hparsed : ∃ c, Config.parse id ⟨"rexec.yaml"⟩ taggedText = .ok c ∧ c.toValue.isWritable = false := by
    generalize Config.parse id ⟨"rexec.yaml"⟩ taggedText = parsed at hany
    cases parsed with
    | error fault => cases hany
    | ok c => exact ⟨c, rfl, Bool.not_eq_true' _ ▸ hany⟩
  obtain ⟨c, hc, hwritable⟩ := hparsed
  refine ⟨c, hc, ?_⟩
  rw [c.body_render, if_neg (by simp [hwritable]), c.parse_outline]
  rfl

end Fleet
