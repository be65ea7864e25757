import Fleet.Proofs.Shell.Octets
import Fleet.Proofs.Shell.Words
import Fleet.Shell.Evaluation

/-!
# The words of a call

What a shell does with a command line of safe words, in whatever state it is: each word is expanded to one field, the
text that it is written for, and these texts are what the command is called with (`calls_commandLine`).  The texts of
a shell are spelt out in bytes, which changes nothing about their safety.
-/

namespace Fleet.Shell

open Text (Bytes)

variable {capture : Command → Action String} {s : State} {w : Written}

/-! ### expansion -/

theorem Course.bind_pure {α : Type} (x : Course α) : x.bind (fun a s => .done (.ok a) s) = x := by
  induction x with
  | done result s => cases result <;> rfl
  | paused wait s next ih => exact congrArg (Course.paused wait s) (funext ih)
  | forked child s next ih => exact congrArg (Course.forked child s) (funext fun id => funext (ih id))

theorem Course.bind_bind {α β γ : Type} (x : Course α) (f : α → State → Course β) (g : β → State → Course γ) :
    (x.bind f).bind g = x.bind fun a s => (f a s).bind g := by
  induction x with
  | done result s => cases result <;> rfl
  | paused wait s next ih => exact congrArg (Course.paused wait s) (funext ih)
  | forked child s next ih => exact congrArg (Course.forked child s) (funext fun id => funext (ih id))

instance : LawfulMonad Action := .mk' Action
  (fun x => funext fun s => (x s).bind_pure)
  (fun _ _ => rfl)
  (fun x f g => funext fun s => (x s).bind_bind f g)

theorem Action.bind_done {α β : Type} {a : Action α} {f : α → Action β} {v : α} (h : a s = .done (.ok v) s) :
    (a >>= f) s = f v s := by
  change Course.bind f (a s) = _
  rw [h]
  rfl

def Written.signs : Written → List Sign
  | bare t => t.toList.map fun c => (c, false)
  | quoted t => t.toList.map fun c => (c, true)

theorem text_signs (w : Written) : Sign.text w.signs = w.value := by
  cases w <;> simp [Written.signs, Written.value, Sign.text, Function.comp_def]

/-- What is not special stands for itself in a pattern too. -/
def Closed (signs : List Sign) : Prop := ∀ sign ∈ signs, sign.2 = false → sign.1 ∉ special

theorem closed_signs (hw : w.isSafe) : Closed w.signs := by
  cases w with
  | bare t =>
    obtain ⟨c, run, ht, -, -, hspecial⟩ := Written.isSafe_bare.mp hw
    intro sign hsign _
    obtain ⟨d, hd, rfl⟩ := List.mem_map.mp hsign
    exact hspecial d (ht ▸ hd)
  | quoted t =>
    intro sign hsign hquoted
    obtain ⟨d, -, rfl⟩ := List.mem_map.mp hsign
    cases hquoted

theorem unescaped_closed {signs : List Sign} (h : Closed signs) : Sign.unescaped signs = signs := by
  induction signs with
  | nil => rfl
  | cons sign signs ih =>
    obtain ⟨c, isQuoted⟩ := sign
    have hc : isQuoted = false → c ∉ special := h (c, isQuoted) List.mem_cons_self
    rw [Sign.unescaped.eq_def]
    split
    · simp_all [special]
    · simp_all [special]
    · simp_all [Closed]
    · simp_all

theorem isOpen_closed {signs : List Sign} (h : Closed signs) : Pattern.isOpen signs = false := by
  induction signs with
  | nil => rfl
  | cons sign signs ih =>
    obtain ⟨c, isQuoted⟩ := sign
    have hrest : Closed signs := fun x hx => h x (List.mem_cons_of_mem _ hx)
    have hc : isQuoted = false → c ∉ special := h (c, isQuoted) List.mem_cons_self
    unfold Pattern.isOpen
    split <;> simp_all [special]

theorem subset_of_mem_splitOnP {p : Sign → Bool} {signs piece : List Sign} (h : piece ∈ signs.splitOnP p) :
    piece ⊆ signs := by
  induction signs generalizing piece with
  | nil => simp_all
  | cons sign signs ih =>
    rw [List.splitOnP_cons_eq_if_modifyHead] at h
    obtain ⟨first, others, hsplit⟩ := List.exists_cons_of_ne_nil (List.splitOnP_ne_nil p signs)
    rw [hsplit] at h ih
    split at h
    · rcases List.mem_cons.mp h with rfl | h
      · simp
      · exact List.Subset.trans (ih h) (List.subset_cons_self _ _)
    · rw [List.modifyHead_cons, List.mem_cons] at h
      rcases h with rfl | h
      · exact List.cons_subset_cons _ (ih List.mem_cons_self)
      · exact List.Subset.trans (ih (List.mem_cons_of_mem _ h)) (List.subset_cons_self _ _)

theorem globbed_closed {signs : List Sign} (h : Closed signs) (d : Directory) : globbed d signs = [Sign.text signs] := by
  have hpieces : ((signs.splitOnP fun sign => sign.1 == '/').any Pattern.isOpen) = false := by
    rw [List.any_eq_false]
    intro piece hpiece
    have hclosed : Closed piece := fun sign hsign => h sign (subset_of_mem_splitOnP hpiece hsign)
    simp [isOpen_closed hclosed]
  rw [globbed, unescaped_closed h]
  simp [hpieces]

def Written.pieces (w : Written) : List Piece :=
  match w with
  | bare _ => [.fixed w.signs]
  | quoted _ => [.mark, .fixed w.signs]

theorem homeWord_word (hw : w.isSafe) (x : Session) : homeWord x w.word = w.word := by
  cases w with
  | bare t =>
    obtain ⟨c, run, ht, -, htilde, -⟩ := Written.isSafe_bare.mp hw
    have hhome : tilde? x true (c :: run) = none := by
      rw [tilde?.eq_def]
      split
      · simp_all
      · rfl
    rw [Written.word, ht, homeWord, withHome, List.isEmpty_nil, hhome]
    rfl
  | quoted t => rfl

theorem expand_word (w : Written) (capture : Command → Action String) {m : Manner} (hm : m.isLoose = false) (n : Nat)
    (s : State) : expand capture (n + 2) m w.word s = .done (.ok w.pieces) s := by
  have hnil : expand capture (n + 1) m [] s = .done (.ok []) s := by
    rw [expand]
    · rfl
    · exact nofun
  cases w with
  | bare t =>
    rw [Written.word, expand]
    simp only [hm]
    exact (Action.bind_done rfl).trans ((Action.bind_done hnil).trans rfl)
  | quoted t =>
    rw [Written.word, expand]
    exact (Action.bind_done rfl).trans ((Action.bind_done hnil).trans rfl)

theorem split_pieces (hw : w.isSafe) (separators : List Char) : split separators none w.pieces = [w.signs] := by
  cases w with
  | bare t =>
    obtain ⟨c, run, ht, -⟩ := Written.isSafe_bare.mp hw
    simp [split, Written.pieces, Splitter.piece, Splitter.start, Splitter.finish, Written.signs, ht]
  | quoted t =>
    simp [split, Written.pieces, Splitter.piece, Splitter.start, Splitter.finish, Written.signs]

/-- **A safe word is expanded to what it is written for.** -/
theorem fields_word (hw : w.isSafe) (capture : Command → Action String) (s : State) :
    fields capture w.word s = .done (.ok [w.value]) s := by
  obtain ⟨n, hn⟩ : ∃ n, expansionFuel = n + 2 := ⟨99998, rfl⟩
  rw [fields]
  refine (Action.bind_done (v := s.session) rfl).trans ?_
  rw [homeWord_word hw, hn]
  refine (Action.bind_done (expand_word w capture rfl n s)).trans ?_
  refine (Action.bind_done (v := s.session) rfl).trans ((Action.bind_done rfl).trans ?_)
  rw [split_pieces hw]
  simp only [List.flatMap_cons, List.flatMap_nil, List.append_nil, globbed_closed (closed_signs hw), ite_self, text_signs]
  rfl

/-! ### calls -/

/-- In every state a shell reads the text as one command without assignments and redirections, and calls it with
these texts, the first of which is its name. -/
def Calls (command : String) (argv : List String) : Prop :=
  ∃ line words after,
    Reader.nextLine false [] ⟨(Octets.encode command).toList, 1⟩ = .ok (some (.simple line [] words []), ⟨[], after⟩) ∧
    ∀ capture s, callOf capture (words.length + 1) .start words s =
      .done (.ok { Call.start with texts := argv.map Octets.encode }) s

/-- In every state a shell reads the text as one command without assignments and redirections, and expands its words
to one field each, these texts. -/
def Reads (command : String) (texts : List String) : Prop :=
  ∃ line words after,
    Reader.nextLine false [] ⟨(Octets.encode command).toList, 1⟩ = .ok (some (.simple line [] words []), ⟨[], after⟩) ∧
    ∀ capture s, words.mapM (fields capture) s = .done (.ok (texts.map fun text => [Octets.encode text])) s

theorem Calls.unique {command : String} {argv argv' : List String} (h : Calls command argv) (h' : Calls command argv') :
    argv.map Octets.encode = argv'.map Octets.encode := by
  obtain ⟨line, words, after, hread, hcall⟩ := h
  obtain ⟨line', words', after', hread', hcall'⟩ := h'
  rw [hread] at hread'
  cases hread'
  have hcall := (hcall (fun _ => pure "") default).symm.trans (hcall' (fun _ => pure "") default)
  injection hcall with hcall
  injection hcall with hcall
  exact congrArg Call.texts hcall

theorem mapM_fields_word {words : List Written} (hsafe : ∀ w ∈ words, w.isSafe) (capture : Command → Action String)
    (s : State) :
    (words.map Written.word).mapM (fields capture) s =
      .done (.ok ((words.map Written.value).map fun text => [text])) s := by
  induction words with
  | nil => rfl
  | cons v words ih =>
    obtain ⟨hv, hwords⟩ := List.forall_mem_cons.mp hsafe
    rw [List.map_cons, List.mapM_cons]
    exact (Action.bind_done (fields_word hv capture s)).trans ((Action.bind_done (ih hwords)).trans rfl)

theorem callOf_words {name : String} {words : List Written} (hw : Reader.Named w name) (hsafe : ∀ w ∈ words, w.isSafe)
    (hwork : Work.ofName? name = none) (capture : Command → Action String) (s : State) :
    callOf capture (((w :: words).map Written.word).length + 1) .start ((w :: words).map Written.word) s =
      .done (.ok { Call.start with texts := (w :: words).map Written.value }) s := by
  have hvalue : w.value = name := by rw [hw.eq]; rfl
  have hrest : (words.map Written.word).mapM (argumentFields capture false) s =
      .done (.ok ((words.map Written.value).map fun text => [text])) s := mapM_fields_word hsafe capture s
  have hfirst : firstFields capture ((w :: words).map Written.word) s =
      .done (.ok ([name], words.map Written.word)) s := by
    rw [List.map_cons, firstFields]
    refine (Action.bind_done (fields_word hw.safe capture s)).trans ?_
    rw [hvalue]
    rfl
  have hflatten : ((words.map Written.value).map fun text => [text]).flatten = words.map Written.value := by
    rw [← List.flatMap_def, List.flatMap_singleton']
  rw [List.length_map, List.length_cons, callOf]
  refine (Action.bind_done hfirst).trans ?_
  dsimp only [Call.start]
  rw [if_neg (by simp), callOf]
  refine (Action.bind_done (v := s.session) rfl).trans ?_
  simp only [hwork, ite_self]
  refine (Action.bind_done hrest).trans ?_
  rw [hflatten, List.map_cons, hvalue]
  rfl

/-! ### words of characters -/

namespace Written

/-- A word that is spelt out in bytes. -/
def encode : Written → Written
  | bare t => bare (Octets.encode t)
  | quoted t => quoted (Octets.encode t)

theorem text_encode (w : Written) : w.encode.text = Octets.encode w.text := by
  have hquote : Octets.encode "'" = "'" := rfl
  cases w with
  | bare t => rfl
  | quoted t => rw [text, Octets.encode_append, Octets.encode_append, hquote]; rfl

theorem value_encode (w : Written) : w.encode.value = Octets.encode w.value := by cases w <;> rfl

theorem isSafe_encode {w : Written} (hw : w.isSafe) : w.encode.isSafe := by
  have hascii : ∀ c ∈ special, c.toNat < 0x80 := by simp [special]
  cases w with
  | bare t =>
    obtain ⟨c, run, ht, hcomment, htilde, hspecial⟩ := isSafe_bare.mp hw
    have hne : (Octets.encode t).toList ≠ [] := by
      rw [Ne, String.toList_eq_nil_iff, Octets.encode_eq_empty, ← String.toList_eq_nil_iff, ht]
      exact List.cons_ne_nil c run
    obtain ⟨d, more, hd⟩ := List.exists_cons_of_ne_nil hne
    have hhead : ∀ e : Char, e.toNat < 0x80 → c ≠ e → d ≠ e := by
      intro e he hce hde
      have h := (Octets.head?_encode (s := t) he).mp (by rw [hd, List.head?_cons, hde])
      rw [ht, List.head?_cons] at h
      exact hce (Option.some.inj h)
    refine isSafe_bare.mpr ⟨d, more, hd, hhead _ (by decide) hcomment, hhead _ (by decide) htilde, fun e he hspec => ?_⟩
    rw [← hd, Octets.mem_encode (hascii e hspec), ht] at he
    exact hspecial e he hspec
  | quoted t =>
    obtain ⟨hquote, hnull⟩ := isSafe_quoted.mp hw
    refine isSafe_quoted.mpr ⟨?_, ?_⟩
    · rwa [Octets.mem_encode (by decide)]
    · rwa [Octets.mem_encode (by decide)]

end Written

/-- A command line: the name of a command and further words, with blanks between them. -/
def commandLine (name : String) (words : List Written) : String :=
  String.intercalate " " (name :: words.map Written.text)

theorem commandLine_nil (name : String) : commandLine name [] = name := rfl

theorem commandLine_cons (name : String) (w : Written) (words : List Written) :
    commandLine name (w :: words) = name ++ " " ++ commandLine w.text words :=
  String.intercalate_cons_of_ne_nil (List.cons_ne_nil _ _)

theorem encode_commandLine (name : String) (words : List Written) :
    (Octets.encode (commandLine name words)).toList =
      (Octets.encode name).toList ++ Reader.following (words.map Written.encode) := by
  have hblank : Octets.encode " " = " " := rfl
  induction words generalizing name with
  | nil => simp [commandLine, Reader.following]
  | cons w words ih =>
    rw [commandLine_cons, Octets.encode_append, Octets.encode_append, hblank, String.toList_append,
      String.toList_append, ih]
    simp [Reader.following, Written.text_encode]

theorem Reader.Named.encode {name : String} (h : Reader.Named (.bare name) name) :
    Reader.Named (.bare (Octets.encode name)) (Octets.encode name) where
  eq := rfl
  safe := Written.isSafe_encode h.safe
  notKeyword hkeyword := by
    have hascii : ∀ word ∈ Token.keywords, ∀ c ∈ word.toList, c.toNat < 0x80 := by simp [Token.keywords]
    rw [Octets.encode_eq_self (hascii _ hkeyword)] at hkeyword
    exact h.notKeyword hkeyword
  notAssignment := by
    rw [Octets.mem_encode (by decide)]
    exact h.notAssignment

section
variable {command name : String} {words : List Written}

theorem map_value_encode (words : List Written) :
    (words.map Written.encode).map Written.value = (words.map Written.value).map Octets.encode := by
  rw [List.map_map, List.map_map]
  exact List.map_congr_left fun w _ => Written.value_encode w

theorem isSafe_map_encode (hsafe : ∀ w ∈ words, w.isSafe) : ∀ w ∈ words.map Written.encode, w.isSafe := by
  simpa using fun w hw => Written.isSafe_encode (hsafe w hw)

/-- A text that spells safe words is read as them, and its words are expanded to what they are written for. -/
theorem reads_of_spells (hname : Reader.Named (.bare name) name) (hsafe : ∀ w ∈ words, w.isSafe)
    (h : Reader.Spells (Octets.encode command).toList (((.bare name :: words).map Written.encode).map Written.word)) :
    Reads command (name :: words.map Written.value) := by
  obtain ⟨after, line, hread⟩ := Reader.nextLine_spells hname.encode.names h
  refine ⟨line, _, after, hread, fun capture s => ?_⟩
  have hall : ∀ w ∈ .bare name :: words, w.isSafe := List.forall_mem_cons.mpr ⟨hname.safe, hsafe⟩
  refine (mapM_fields_word (isSafe_map_encode hall) capture s).trans ?_
  rw [map_value_encode, List.map_map]
  rfl

/-- And if the shell has no command of its own by this name, then it calls the command with these texts. -/
theorem calls_of_spells (hname : Reader.Named (.bare name) name) (hsafe : ∀ w ∈ words, w.isSafe)
    (hwork : Work.ofName? (Octets.encode name) = none)
    (h : Reader.Spells (Octets.encode command).toList (((.bare name :: words).map Written.encode).map Written.word)) :
    Calls command (name :: words.map Written.value) := by
  obtain ⟨after, line, hread⟩ := Reader.nextLine_spells hname.encode.names h
  refine ⟨line, _, after, hread, fun capture s => ?_⟩
  refine (callOf_words hname.encode (isSafe_map_encode hsafe) hwork capture s).trans ?_
  rw [List.map_cons, map_value_encode]
  rfl

/-- **A command line of safe words calls its command with what the words are written for.** -/
theorem calls_commandLine (hname : Reader.Named (.bare name) name) (hwork : Work.ofName? (Octets.encode name) = none)
    (hsafe : ∀ w ∈ words, w.isSafe) : Calls (commandLine name words) (name :: words.map Written.value) := by
  refine calls_of_spells hname hsafe hwork ?_
  rw [encode_commandLine]
  exact .word (Reader.legible_text hname.encode.safe) (Reader.ends_following _)
    (Reader.spells_following (isSafe_map_encode hsafe))

end

end Fleet.Shell
