import Fleet.Job
import Fleet.Proofs.Shell.Calls
import Fleet.Proofs.Shell.Quotes
import Fleet.Proofs.Text

/-!
# Commands that go through two shells

The shell command of a job on a host is read twice: here, where the command of the login shell stands between single
quotes, and on the host, where the job's own command stands between double quotes.  If there is neither a single quote
nor a null character in it, the login shell's command reaches the host as it is.  There the job's command is handed on
as it is if it is inert (`shellCommand_handsOver`); what a dollar sign, a backquote or a backslash means is done before
the login shell is started (`shellCommand_expands`).
-/

namespace Fleet.Shell

open Reader (IsBlank Ends Spells Legible)

/-! ### texts of plain words -/

/-- The words of a text, which blanks stand between and around. -/
def blankWords (s : List Char) : List (List Char) := (s.splitOnP fun c => decide (IsBlank c)).filter (· ≠ [])

def wordsOf (s : String) : List String := (blankWords s.toList).map String.ofList

/-- A text of words that stand for themselves in a command line, the first of which can be the name of a command. -/
structure PlainWords (s : String) : Prop where
  safe : ∀ w ∈ wordsOf s, (Written.bare w).isSafe
  named : ∃ name more, wordsOf s = name :: more ∧ name ∉ Token.keywords ∧ '=' ∉ name.toList

theorem blankWords_append_blank {c : Char} (hc : IsBlank c) (s t : List Char) :
    blankWords (s ++ c :: t) = blankWords s ++ blankWords t := by
  rw [blankWords, List.splitOnP_append_cons s t (by simpa using hc), List.filter_append]
  rfl

theorem blankWords_free {s : List Char} (h : ∀ c ∈ s, ¬ IsBlank c) : blankWords s = if s = [] then [] else [s] := by
  rw [blankWords, List.splitOnP_eq_singleton (by simpa using h)]
  by_cases hs : s = [] <;> simp [hs]

theorem exists_blankWords {s : List Char} {c : Char} (hc : c ∈ s) (hblank : ¬ IsBlank c) :
    ∃ w ∈ blankWords s, c ∈ w := by
  induction s using Text.run_induction IsBlank with
  | last l hl => exact ⟨l, by rw [blankWords_free hl, if_neg (List.ne_nil_of_mem hc)]; simp, hc⟩
  | run l d rest hl hd ih =>
    rw [blankWords_append_blank hd]
    rcases List.mem_append.mp hc with hc | hc
    · exact ⟨l, by rw [blankWords_free hl, if_neg (List.ne_nil_of_mem hc)]; simp, hc⟩
    · rcases List.mem_cons.mp hc with rfl | hc
      · exact absurd hd hblank
      · obtain ⟨w, hw, hcw⟩ := ih hc
        exact ⟨w, List.mem_append_right _ hw, hcw⟩

theorem PlainWords.notMem {s : String} (h : PlainWords s) {c : Char} (hc : c ∈ special) (hblank : ¬ IsBlank c) :
    c ∉ s.toList := by
  intro hmem
  obtain ⟨w, hw, hcw⟩ := exists_blankWords hmem hblank
  obtain ⟨d, run, ht, -, -, hspecial⟩ := Written.isSafe_bare.mp (h.safe _ (List.mem_map_of_mem hw))
  rw [String.toList_ofList] at ht
  exact hspecial c (ht ▸ hcw) hc

/-! ### what is spelt -/

theorem spelling_blank {c : Char} (hc : IsBlank c) : Octets.spelling c = [c] :=
  Octets.spelling_ascii (by rcases hc with rfl | rfl <;> decide)

theorem spells_blankWords {s : List Char} (h : ∀ w ∈ blankWords s, (Written.bare (String.ofList w)).isSafe) :
    Spells (s.flatMap Octets.spelling)
      ((blankWords s).map fun w => (Written.bare (String.ofList w)).encode.word) := by
  have hword : ∀ {l : List Char}, (∀ c ∈ l, ¬ IsBlank c) →
      (∀ w ∈ blankWords l, (Written.bare (String.ofList w)).isSafe) →
      Spells (l.flatMap Octets.spelling)
        ((blankWords l).map fun w => (Written.bare (String.ofList w)).encode.word) := by
    intro l hl hsafe
    rw [blankWords_free hl] at hsafe ⊢
    split at hsafe
    · rename_i hnil
      rw [hnil, if_pos rfl]
      exact .nil
    · rename_i hne
      rw [if_neg hne]
      have hlegible := Reader.legible_text (Written.isSafe_encode (hsafe l List.mem_cons_self))
      have htext : (Written.bare (String.ofList l)).encode.text.toList = l.flatMap Octets.spelling := by
        rw [Written.encode, Written.text, Octets.toList_encode, String.toList_ofList]
      rw [htext] at hlegible
      simpa using Spells.word hlegible Reader.ends_nil .nil
  induction s using Text.run_induction IsBlank with
  | last l hl => exact hword hl h
  | run l c rest hl hc ih =>
    rw [blankWords_append_blank hc, List.forall_mem_append] at h
    rw [blankWords_append_blank hc, List.map_append, List.flatMap_append, List.flatMap_cons, spelling_blank hc]
    refine (hword hl h.1).append (.blank hc (ih h.2)) fun d hd => ?_
    cases hd
    exact hc

theorem PlainWords.spells {s : String} (h : PlainWords s) :
    Spells (Octets.encode s).toList ((((wordsOf s).map Written.bare).map Written.encode).map Written.word) := by
  have hsafe : ∀ w ∈ blankWords s.toList, (Written.bare (String.ofList w)).isSafe :=
    fun w hw => h.safe _ (List.mem_map_of_mem hw)
  have hspells := spells_blankWords hsafe
  rw [← Octets.toList_encode] at hspells
  simpa [wordsOf, Function.comp_def] using hspells

/-! ### handing over -/

/-- A shell reads the text as one command of these words, and it calls the command with them unless it has one of its
own by this name. -/
def HandsOver (command : String) (texts : List String) : Prop :=
  Reads command texts ∧
    ∀ name ∈ texts.head?, Work.ofName? (Octets.encode name) = none → Calls command texts

theorem handsOver_of_spells {command s : String} (last : List Written) (hs : PlainWords s)
    (hlast : ∀ w ∈ last, w.isSafe)
    (h : Spells (Octets.encode command).toList
      ((((wordsOf s).map Written.bare ++ last).map Written.encode).map Written.word)) :
    HandsOver command (wordsOf s ++ last.map Written.value) := by
  obtain ⟨name, more, hwords, hkeyword, hassignment⟩ := hs.named
  have hplain := hs.safe
  rw [hwords] at h hplain ⊢
  obtain ⟨hname, hmore⟩ := List.forall_mem_cons.mp hplain
  have hnamed : Reader.Named (.bare name) name := ⟨rfl, hname, hkeyword, hassignment⟩
  have hsafe : ∀ w ∈ more.map Written.bare ++ last, w.isSafe :=
    List.forall_mem_append.mpr ⟨by simpa using hmore, hlast⟩
  have hvalues : (more.map Written.bare ++ last).map Written.value = more ++ last.map Written.value := by
    rw [List.map_append, List.map_map]
    exact congrArg (· ++ _) (List.map_id more)
  have hreads := reads_of_spells hnamed hsafe h
  rw [hvalues] at hreads
  refine ⟨hreads, fun name' hname' hwork => ?_⟩
  cases hname'
  have hcalls := calls_of_spells hnamed hsafe hwork h
  rw [hvalues] at hcalls
  exact hcalls

end Fleet.Shell

namespace Fleet.Access

open Shell

variable {access : Access} {hostname loginShell command : String}

/-- The command that is given to the shell on the host. -/
def loginCommand (loginShell command : String) : String := loginShell ++ " -c \"" ++ command ++ "\""

theorem shellCommand_eq : access.shellCommand hostname loginShell command =
    access.ssh ++ " " ++ (Written.bare (access.user ++ "@" ++ hostname)).text ++ " " ++
      (Written.quoted (loginCommand loginShell command)).text := by
  rw [← String.toList_inj]
  simp [shellCommand, loginCommand, Written.text]

theorem isSafe_loginCommand (hlogin : PlainWords loginShell) (hquote : '\'' ∉ command.toList)
    (hnull : '\x00' ∉ command.toList) : (Written.quoted (loginCommand loginShell command)).isSafe := by
  have hfree : ∀ {c : Char}, c ∉ loginShell.toList → c ∉ command.toList → c ∉ [' ', '-', 'c', '"'] →
      c ∉ (loginCommand loginShell command).toList := by
    intro c hc hcommand hplain
    simp_all [loginCommand]
  refine Written.isSafe_quoted.mpr ⟨hfree ?_ hquote (by decide), hfree ?_ hnull (by decide)⟩
  · exact hlogin.notMem (by decide) (by decide)
  · exact hlogin.notMem (by decide) (by decide)

/-- **Here the command for the host is handed over** to what the host is reached by. -/
theorem handsOver_shellCommand (hssh : PlainWords access.ssh)
    (hhost : (Written.bare (access.user ++ "@" ++ hostname)).isSafe) (hlogin : PlainWords loginShell)
    (hquote : '\'' ∉ command.toList) (hnull : '\x00' ∉ command.toList) :
    HandsOver (access.shellCommand hostname loginShell command)
      (wordsOf access.ssh ++ [access.user ++ "@" ++ hostname, loginCommand loginShell command]) := by
  have hinner := isSafe_loginCommand hlogin hquote hnull
  refine handsOver_of_spells [.bare (access.user ++ "@" ++ hostname), .quoted (loginCommand loginShell command)]
    hssh (by simpa using ⟨hhost, hinner⟩) ?_
  have hspells := (hssh.spells.concat (Reader.legible_text (Written.isSafe_encode hhost))).concat
    (Reader.legible_text (Written.isSafe_encode hinner))
  have hblank : Octets.encode " " = " " := rfl
  rw [shellCommand_eq]
  simpa [Octets.encode_append, Written.text_encode, hblank] using hspells

/-- **On the host the job's command is handed over** to the login shell. -/
theorem handsOver_loginCommand (hlogin : PlainWords loginShell) (hquote : '\'' ∉ command.toList)
    (hnull : '\x00' ∉ command.toList) (hinert : isInert command.toList) :
    HandsOver (loginCommand loginShell command) (wordsOf loginShell ++ ["-c", command]) := by
  have hcommand : (Written.quoted command).isSafe := Written.isSafe_quoted.mpr ⟨hquote, hnull⟩
  have hoption : (Written.bare "-c").isSafe := by decide
  refine handsOver_of_spells [.bare "-c", .quoted command] hlogin (by simpa using ⟨hoption, hcommand⟩) ?_
  have hencoded : isInert (Octets.encode command).toList := by
    rw [Octets.toList_encode]
    exact isInert_spelling hinert
  have hspells := (hlogin.spells.concat (Reader.legible_text (Written.isSafe_encode hoption))).concat
    (Reader.legible_doubled hencoded)
  have hbegin : Octets.encode " -c \"" = " -c \"" := rfl
  have hend : Octets.encode "\"" = "\"" := rfl
  have htext : (Written.bare "-c").encode.text = "-c" := rfl
  have hword : (Written.quoted command).encode.word = (Written.quoted (Octets.encode command)).word := rfl
  rw [htext] at hspells
  simpa [loginCommand, Octets.encode_append, hbegin, hend, hword] using hspells

/-- **Commands that go through two shells.**  Whatever else it contains, a command without single quotes and null
characters that is inert comes through: the shell here hands one text to what the host is reached by, as its last
argument, and the shell on the host reads this text and hands the command as it is to the login shell, as the one
argument behind its option. -/
theorem shellCommand_handsOver (hssh : PlainWords access.ssh)
    (hhost : (Written.bare (access.user ++ "@" ++ hostname)).isSafe) (hlogin : PlainWords loginShell)
    (hquote : '\'' ∉ command.toList) (hnull : '\x00' ∉ command.toList) (hinert : isInert command.toList) :
    ∃ inner,
      HandsOver (access.shellCommand hostname loginShell command)
        (wordsOf access.ssh ++ [access.user ++ "@" ++ hostname, inner]) ∧
      HandsOver inner (wordsOf loginShell ++ ["-c", command]) :=
  ⟨loginCommand loginShell command, handsOver_shellCommand hssh hhost hlogin hquote hnull,
    handsOver_loginCommand hlogin hquote hnull hinert⟩

theorem shellCommand_handsOver_sample :
    isInert "cd /srv;  ./run --id=$ a\\b *.txt &>out # 5€\n".toList ∧
    ∃ inner,
      HandsOver ((Access.mk "ssh  -i key " "ann").shellCommand "a.ex.net" "bash -l"
          "cd /srv;  ./run --id=$ a\\b *.txt &>out # 5€\n")
        ["ssh", "-i", "key", "ann@a.ex.net", inner] ∧
      HandsOver inner ["bash", "-l", "-c", "cd /srv;  ./run --id=$ a\\b *.txt &>out # 5€\n"] := by
  have hinert : isInert "cd /srv;  ./run --id=$ a\\b *.txt &>out # 5€\n".toList := by decide
  have hssh : PlainWords (Access.mk "ssh  -i key " "ann").ssh := ⟨by decide, _, _, rfl, by decide, by decide⟩
  have hlogin : PlainWords "bash -l" := ⟨by decide, _, _, rfl, by decide, by decide⟩
  exact ⟨hinert, shellCommand_handsOver hssh (by decide) hlogin (by decide) (by decide) hinert⟩

/-! ### commands that are not inert -/

/-- What the words of a text are expanded to by a shell that knows nothing and whose commands write nothing. -/
def fieldsAtStart (command : String) : Option (List (List String)) :=
  match Reader.nextLine false [] ⟨(Octets.encode command).toList, 1⟩ with
  | .ok (some (.simple _ _ words _), _) =>
    match words.mapM (fields fun _ => pure "") default with
    | .done (.ok texts) _ => some texts
    | _ => none
  | _ => none

theorem fieldsAtStart_of_reads {texts : List String} (h : Reads command texts) :
    fieldsAtStart command = some (texts.map fun text => [Octets.encode text]) := by
  obtain ⟨line, words, after, hread, hfields⟩ := h
  simp only [fieldsAtStart, hread, hfields]

/-- **Commands that do not come through.**  None of them contains a quote.  The variable of the loop and the output of
the command between backquotes are put in by the shell on the host, and of two backslashes one is lost there. -/
theorem shellCommand_expands :
    PlainWords "ssh" ∧ (Written.bare ("ann" ++ "@" ++ "a.ex.net")).isSafe ∧ PlainWords "sh" ∧
    ∀ command ∈ ["for i in 1 2; do echo $i; done", "echo \x60id -u\x60", "echo a\\\\b"],
      '\'' ∉ command.toList ∧ '"' ∉ command.toList ∧ '\x00' ∉ command.toList ∧
      ¬ ∃ inner,
        HandsOver ((Access.mk "ssh" "ann").shellCommand "a.ex.net" "sh" command) ["ssh", "ann@a.ex.net", inner] ∧
        HandsOver inner ["sh", "-c", command] := by
  have hssh : PlainWords "ssh" := ⟨by decide, _, _, rfl, by decide, by decide⟩
  have hlogin : PlainWords "sh" := ⟨by decide, _, _, rfl, by decide, by decide⟩
  have hhost : (Written.bare ("ann" ++ "@" ++ "a.ex.net")).isSafe := by decide
  have hcommands : ∀ command ∈ ["for i in 1 2; do echo $i; done", "echo \x60id -u\x60", "echo a\\\\b"],
      '\'' ∉ command.toList ∧ '"' ∉ command.toList ∧ '\x00' ∉ command.toList ∧
      fieldsAtStart (loginCommand "sh" command) ≠
        some (["sh", "-c", command].map fun text => [Octets.encode text]) := by
    decide +kernel
  refine ⟨hssh, hhost, hlogin, fun command hcommand => ?_⟩
  obtain ⟨hquote, hdouble, hnull, hchanged⟩ := hcommands command hcommand
  refine ⟨hquote, hdouble, hnull, fun ⟨inner, houter, hinner⟩ => hchanged ?_⟩
  -- the text that reaches the host is the only one that can
  have hgiven : HandsOver ((Access.mk "ssh" "ann").shellCommand "a.ex.net" "sh" command)
      (wordsOf "ssh" ++ ["ann@a.ex.net", loginCommand "sh" command]) :=
    handsOver_shellCommand hssh hhost hlogin hquote hnull
  have hsame : Octets.encode inner = Octets.encode (loginCommand "sh" command) := by
    have hfields := (fieldsAtStart_of_reads houter.1).symm.trans (fieldsAtStart_of_reads hgiven.1)
    have hwords : wordsOf "ssh" = ["ssh"] := rfl
    simpa [hwords] using hfields
  have hread := fieldsAtStart_of_reads hinner.1
  rwa [fieldsAtStart, hsame, ← fieldsAtStart] at hread

end Fleet.Access
