import Fleet.Shell.Reader
import Mathlib.Data.List.TakeDrop
import Mathlib.Tactic.Common

/-!
# Reading a plain command line

A command line of words with blanks between them is read as one simple command of these words (`nextLine_spells`), if
each of them is legible: its text is read as the word whatever ends it.  The reader's steps are followed from the inside
out: the parts of a word, a token, the words of a command, the line.

Words that are written as they stand or between single quotes are legible if they are safe: nothing in them means
anything but itself (`legible_text`).  No commands stand within such words, so it does not matter what those are read
by.
-/

namespace Fleet.Shell

/-- A word of a command line as it is written: a text as it stands, or one between single quotes. -/
inductive Written where
  | bare (text : String)
  | quoted (text : String)
  deriving DecidableEq

/-- The characters that end a word or mean something in it where they are not quoted.  A null character ends the
whole text.  What stands between braces is a list or a range in some shells; where there are none, commas and dots
are plain. -/
def special : List Char :=
  ['\\', '$', '\x60', '\n', '"', '\'', ' ', '\t', ';', '&', '|', '<', '>', '(', ')', '*', '?', '[', '\x7b', '\x7d',
    '\x00']

namespace Written

def text : Written → String
  | bare t => t
  | quoted t => "'" ++ t ++ "'"

def value : Written → String
  | bare t | quoted t => t

def word : Written → Word
  | bare t => [.text false t.toList]
  | quoted t => [.text true t.toList]

/-- Whether nothing in a word is read as anything but itself. -/
def isSafe : Written → Bool
  | bare t => t.toList.head?.any (fun c => c ≠ '#' ∧ c ≠ '~') && t.toList.all (· ∉ special)
  | quoted t => '\'' ∉ t.toList ∧ '\x00' ∉ t.toList

theorem isSafe_bare {t : String} :
    (bare t).isSafe ↔ ∃ c run, t.toList = c :: run ∧ c ≠ '#' ∧ c ≠ '~' ∧ ∀ d ∈ c :: run, d ∉ special := by
  rw [isSafe]
  cases t.toList with
  | nil => simp
  | cons c run => simp [and_assoc]

theorem isSafe_quoted {t : String} : (quoted t).isSafe ↔ '\'' ∉ t.toList ∧ '\x00' ∉ t.toList := by
  simp [isSafe]

theorem text_begins {w : Written} (hw : w.isSafe) :
    ∃ c rest, w.text.toList = c :: rest ∧ c ∉ [' ', '\t', '#', '\\', '\n', '&', '|', ';', '(', ')'] := by
  cases w with
  | bare t =>
    obtain ⟨c, run, ht, hcomment, -, hspecial⟩ := isSafe_bare.mp hw
    have hc := hspecial c List.mem_cons_self
    simp only [special, List.mem_cons, not_or] at hc
    exact ⟨c, run, ht, by simp [hc, hcomment]⟩
  | quoted t => exact ⟨'\'', t.toList ++ ['\''], by simp [text], by decide⟩

theorem bare?_word {w : Written} {name : String} (hname : name ∈ w.word.bare?) : name = w.value := by
  cases w with
  | bare t => simpa [word, value, Word.bare?, eq_comm] using hname
  | quoted t => cases hname

end Written

namespace Reader

theorem bind_ok {α β : Type} {a : Reading α} {f : α → Reading β} {x y : Scanner} {v : α} (h : a x = .ok (v, y)) :
    (a >>= f) x = f v y := by
  change Except.bind (a x) _ = _
  rw [h]
  rfl

theorem bind_congr {α β : Type} {a b : Reading α} {f : α → Reading β} {x y : Scanner} (h : a x = b y) :
    (a >>= f) x = (b >>= f) y := by
  change Except.bind (a x) _ = Except.bind (b y) _
  rw [h]

/-! ### the parts of a word -/

def inCommand : Setting := ⟨.word, false, none⟩

def IsBlank (c : Char) : Prop := c = ' ' ∨ c = '\t'

instance : DecidablePred IsBlank := fun c => inferInstanceAs (Decidable (c = ' ' ∨ c = '\t'))

def Ends (tail : List Char) : Prop := ∀ c ∈ tail.head?, IsBlank c

theorem ends_nil : Ends [] := nofun

theorem Ends.append {s t : List Char} (hs : Ends s) (ht : Ends t) : Ends (s ++ t) := by
  cases s with
  | nil => exact ht
  | cons c s => exact hs

theorem isMeant_of_isBlank {c : Char} (h : IsBlank c) : inCommand.isMeant c = true := by
  rcases h with rfl | rfl <;> rfl

variable {commands : Reading Command} {n : Nat} {tail : List Char}

theorem span_append {p : Char → Bool} {run : List Char} (tail : List Char) (h : ∀ c ∈ run, p c)
    (htail : ∀ c ∈ tail.head?, ¬p c) :
    (run ++ tail).span p = (run, tail) := by
  rw [List.span_eq_takeWhile_dropWhile, List.takeWhile_append_of_pos h, List.dropWhile_append_of_pos h]
  cases tail with
  | nil => simp
  | cons c cs =>
    have hc : p c = false := by simpa using htail c rfl
    simp [hc]

section
variable {before : List Part} {x : Scanner}

theorem parts_end (h : Ends x.rest) : parts commands (n + 1) inCommand before x = .ok (before.reverse, x) := by
  obtain ⟨rest, line, token⟩ := x
  rw [parts]
  cases rest with
  | nil => rfl
  | cons c more => rcases h c rfl with rfl | rfl <;> rfl

theorem parts_opening {rest : List Char} (hx : x.rest = '\'' :: rest) :
    parts commands (n + 1) inCommand before x =
      (match singleQuoted? rest with
      | some (inner, after) => do
        set { x with rest := after, line := x.line + inner.count '\n' }
        parts commands n inCommand (add true inner before)
      | none => do
        set { x with rest := [], line := x.line + rest.count '\n' }
        fail .unterminatedQuote : Reading Word) x := by
  obtain ⟨_, line, token⟩ := x
  obtain rfl := hx
  rw [parts]
  rfl

theorem parts_quoted {inner : List Char} (h : '\'' ∉ inner) (hx : x.rest = '\'' :: (inner ++ '\'' :: tail)) :
    parts commands (n + 1) inCommand before x =
      parts commands n inCommand (add true inner before)
        { x with rest := tail, line := x.line + inner.count '\n' } := by
  have hquoted : singleQuoted? (inner ++ '\'' :: tail) = some (inner, tail) := by
    rw [singleQuoted?, span_append _ (fun c hc => bne_iff_ne.mpr (ne_of_mem_of_not_mem hc h)) (by simp)]
  rw [parts_opening hx, hquoted]
  rfl

theorem parts_bare {x : Scanner} {ctx : Setting} {c : Char} {run : List Char}
    (h : ∀ d ∈ c :: run, ctx.isMeant d = false) (htail : ∀ d ∈ tail.head?, ctx.isMeant d = true)
    (hx : x.rest = c :: run ++ tail) :
    parts commands (n + 1) ctx before x =
      parts commands n ctx (add ctx.isQuoted (c :: run) before) { x with rest := tail } := by
  obtain ⟨rest, line, token⟩ := x
  obtain rfl : rest = _ := hx
  have hspan : (c :: run ++ tail).span (!ctx.isMeant ·) = (c :: run, tail) :=
    span_append _ (fun d hd => by simp [h d hd]) fun d hd => by simp [htail d hd]
  have hc := h c List.mem_cons_self
  have hmeant : c ≠ '\\' ∧ c ≠ '\n' ∧ c ≠ '$' ∧ c ≠ '\x60' := by
    refine ⟨?_, ?_, ?_, ?_⟩ <;> (rintro rfl; simp [Setting.isMeant] at hc)
  obtain ⟨hbackslash, hnewline, hdollar, hbackquote⟩ := hmeant
  have hjoined : Position.joined (c :: run ++ tail) line = ⟨c :: run ++ tail, line⟩ := by
    rw [Position.joined.eq_def]
    split
    · simp_all
    · rfl
  rw [parts]
  simp only [join, bind, StateT.bind, modify, modifyGet, MonadStateOf.modifyGet, StateT.modifyGet, Except.bind, pure,
    Except.pure, hjoined, get, getThe, MonadStateOf.get, StateT.get]
  rw [hspan, List.cons_append]
  dsimp only
  -- only the last case, that of any other character, agrees with what is known of the first one
  generalize hrest : c :: (run ++ tail) = rest
  split
  case h_7 =>
    cases hrest
    rw [hc]
    rfl
  all_goals simp_all only [List.cons.injEq, reduceCtorEq, false_and]

end

/-- A text that is read as a word, whatever ends it.  It begins with no blank, no comment and no operator. -/
structure Legible (text : List Char) (w : Word) : Prop where
  begins : ∃ c rest, text = c :: rest ∧ c ∉ [' ', '\t', '#', '\\', '\n', '&', '|', ';', '(', ')']
  parts {commands : Reading Command} {n : Nat} {x : Scanner} {tail : List Char} (hn : text.length < n)
    (htail : Ends tail) (hx : x.rest = text ++ tail) :
    ∃ line, parts commands n inCommand [] x = .ok (w, { x with rest := tail, line })

theorem Legible.length_pos {text : List Char} {w : Word} (h : Legible text w) : 0 < text.length := by
  obtain ⟨c, rest, rfl, -⟩ := h.begins
  simp

theorem legible_text {w : Written} (hw : w.isSafe) : Legible w.text.toList w.word where
  begins := Written.text_begins hw
  parts {commands n x tail} hn htail hx := by
    obtain ⟨m, rfl⟩ : ∃ m, n = m + 2 := by
      obtain ⟨c, rest, htext, -⟩ := Written.text_begins hw
      rw [htext, List.length_cons] at hn
      exact ⟨n - 2, by omega⟩
    cases w with
    | bare t =>
      obtain ⟨c, run, ht, -, -, hspecial⟩ := Written.isSafe_bare.mp hw
      have hmeant : ∀ d ∈ c :: run, inCommand.isMeant d = false := by
        intro d hd
        have hd := hspecial d hd
        simp only [special, List.mem_cons, not_or] at hd
        simp [inCommand, Setting.isMeant, hd]
      rw [Written.text, ht] at hx
      refine ⟨x.line, ?_⟩
      rw [parts_bare hmeant (fun d hd => isMeant_of_isBlank (htail d hd)) hx, parts_end htail, Written.word, ht]
      rfl
    | quoted t =>
      refine ⟨x.line + t.toList.count '\n', ?_⟩
      rw [parts_quoted (Written.isSafe_quoted.mp hw).1 (by simpa [Written.text] using hx), parts_end htail,
        Written.word]
      rfl

/-! ### tokens -/

/-- A reader that has announced no here-documents and knows no aliases. -/
def reading (rest : List Char) (line : Nat) (token : Token) (isHeld : Bool) (word : Word) : Scanner :=
  { rest, line, token, isHeld, word
    opening := ⟨0, .read, false⟩, announced := [], found := [], known := [], count := 0, depth := 0
    greatestDepth := 0, aliases := [], expanding := [], isExtended := false }

section
variable {rest text : List Char} {w : Word} {wanted : Expected}

theorem word_legible (hw : Legible text w) (hn : text.length < n) (htail : Ends tail) (line : Nat) (token : Token)
    (isHeld : Bool) (old : Word) :
    ∃ line', Reader.word commands (n + 1) inCommand (reading (text ++ tail) line token isHeld old) =
      .ok ((), reading tail line' .word isHeld w) := by
  obtain ⟨line', hparts⟩ := hw.parts (x := reading (text ++ tail) line token isHeld old) hn htail rfl
  refine ⟨line', ?_⟩
  rw [Reader.word]
  refine (bind_ok hparts).trans ?_
  cases tail with
  | nil => rfl
  | cons c more => rcases htail c rfl with rfl | rfl <;> rfl

theorem afterBlanks_legible (hw : Legible text w) (line : Nat) :
    Position.afterBlanks false (text ++ tail) line = ⟨text ++ tail, line⟩ := by
  obtain ⟨c, rest, rfl, hc⟩ := hw.begins
  simp only [List.mem_cons, not_or] at hc
  rw [List.cons_append, Position.afterBlanks.eq_def]
  simp [hc]

theorem operator_legible (hw : Legible text w) (line : Nat) (token : Token) (isHeld : Bool) (old : Word) :
    operator (reading (text ++ tail) line token isHeld old) =
      .ok (none, reading (text ++ tail) line token isHeld old) := by
  obtain ⟨c, rest, rfl, hc⟩ := hw.begins
  simp only [List.mem_cons, not_or] at hc
  rw [List.cons_append, operator]
  refine (bind_ok rfl).trans ?_
  simp [reading, hc]
  rfl

theorem fresh_legible (hw : Legible text w) (hn : text.length < n) (htail : Ends tail) (line : Nat) (token : Token)
    (isHeld : Bool) (old : Word) :
    ∃ line', fresh commands (n + 2) (reading (text ++ tail) line token isHeld old) =
      .ok (false, reading tail line' .word isHeld w) := by
  have hmove : moveTo (Position.afterBlanks false (text ++ tail) line) (reading (text ++ tail) line token isHeld old) =
      .ok ((), reading (text ++ tail) line token isHeld old) := by
    rw [afterBlanks_legible hw]
    rfl
  obtain ⟨line', hword⟩ := word_legible hw hn htail line token isHeld old
  refine ⟨line', ?_⟩
  rw [fresh]
  refine (bind_ok rfl).trans ((bind_ok hmove).trans ((bind_ok rfl).trans ?_))
  refine (bind_ok rfl).trans ((bind_ok rfl).trans ((bind_ok rfl).trans ?_))
  rw [if_neg (by simp [reading])]
  exact (bind_ok (operator_legible hw line token isHeld old)).trans (bind_ok hword)

theorem fresh_blank {c : Char} (hc : IsBlank c) (line : Nat) (token : Token) (isHeld : Bool) (old : Word) :
    fresh commands n (reading (c :: rest) line token isHeld old) =
      fresh commands n (reading rest line token isHeld old) := by
  cases n with
  | zero =>
    rw [fresh]
    rfl
  | succ n =>
    have hblanks : Position.afterBlanks false (c :: rest) line = Position.afterBlanks false rest line := by
      rw [Position.afterBlanks.eq_def]
      exact if_pos hc
    have hmove : moveTo (Position.afterBlanks false (c :: rest) line) (reading (c :: rest) line token isHeld old) =
        moveTo (Position.afterBlanks false rest line) (reading rest line token isHeld old) := by
      rw [hblanks]
      rfl
    rw [fresh]
    refine (bind_ok rfl).trans (Eq.trans ?_ (bind_ok rfl).symm)
    exact bind_congr hmove

theorem fresh_end (line : Nat) (token : Token) (isHeld : Bool) (old : Word) :
    fresh commands (n + 1) (reading [] line token isHeld old) = .ok (false, reading [] line .ending isHeld old) := by
  rw [fresh]
  rfl

/-- A token, held or read afresh, is told as it is where no keyword that it may be is looked for. -/
theorem token_eq {line : Nat} {token : Token} {word : Word} {x : Scanner}
    (hstep : x = reading rest line token true word ∨
      x.isHeld = false ∧ fresh commands n x = .ok (false, reading rest line token false word))
    (hnewlines : wanted.skipsNewlines = false)
    (hkeyword : wanted.keywords → ∀ name ∈ word.bare?, name ∉ Token.keywords) :
    Reader.token commands (n + 1) wanted x = .ok (token, reading rest line token false word) := by
  rw [Reader.token]
  refine (bind_ok rfl).trans ?_
  rcases hstep with rfl | ⟨hheld, hfresh⟩
  on_goal 1 => refine (bind_ok rfl).trans ?_
  on_goal 2 =>
    dsimp only
    rw [if_neg (by simp [hheld])]
    refine (bind_ok hfresh).trans ?_
  all_goals
    refine (bind_ok (v := reading rest line token false word) (y := reading rest line token false word) rfl).trans ?_
    rw [if_neg (by simp [hnewlines])]
    by_cases htoken : token = .word
    · subst htoken
      refine (bind_ok rfl).trans ?_
      dsimp only [reading]
      cases hname : word.bare? with
      | none => rfl
      | some name =>
        dsimp only
        rw [if_neg fun h => hkeyword h.1 name hname h.2]
        split <;> rfl
    · exact congrFun (if_pos htoken) _

theorem token_held (wanted : Expected) (hnewlines : wanted.skipsNewlines = false) (hkeyword : wanted.keywords = false)
    (line : Nat) (token : Token) (word : Word) :
    Reader.token commands (n + 1) wanted (reading rest line token true word) =
      .ok (token, reading rest line token false word) :=
  token_eq (.inl rfl) hnewlines fun h => absurd h (by simp [hkeyword])

theorem token_legible (wanted : Expected) (hw : Legible text w) (hn : text.length < n) (htail : Ends tail)
    (hnewlines : wanted.skipsNewlines = false) (hkeyword : wanted.keywords → ∀ name ∈ w.bare?, name ∉ Token.keywords)
    (line : Nat) (token : Token) (old : Word) :
    ∃ line', Reader.token commands (n + 3) wanted (reading (text ++ tail) line token false old) =
      .ok (.word, reading tail line' .word false w) := by
  obtain ⟨line', hfresh⟩ := fresh_legible hw hn htail line token false old
  exact ⟨line', token_eq (.inr ⟨rfl, hfresh⟩) hnewlines hkeyword⟩

theorem token_end (hnewlines : wanted.skipsNewlines = false) (hkeyword : wanted.keywords = false) (line : Nat)
    (token : Token) (old : Word) :
    Reader.token commands (n + 2) wanted (reading [] line token false old) =
      .ok (.ending, reading [] line .ending false old) :=
  token_eq (.inr ⟨rfl, fresh_end line token false old⟩) hnewlines fun h => absurd h (by simp [hkeyword])

theorem token_blank {c : Char} (hc : IsBlank c) (line : Nat) (token : Token) (old : Word) :
    Reader.token commands n wanted (reading (c :: rest) line token false old) =
      Reader.token commands n wanted (reading rest line token false old) := by
  cases n with
  | zero =>
    rw [Reader.token]
    rfl
  | succ n =>
    rw [Reader.token]
    refine (bind_ok rfl).trans (Eq.trans ?_ (bind_ok rfl).symm)
    exact bind_congr (fresh_blank hc line token false old)

end

/-! ### a command line -/

/-- A text spells words: it is what they are read from, with blanks between and around them. -/
inductive Spells : List Char → List Word → Prop where
  | nil : Spells [] []
  | blank {c : Char} {text : List Char} {words : List Word} (hc : IsBlank c) (h : Spells text words) :
    Spells (c :: text) words
  | word {text more : List Char} {w : Word} {words : List Word} (hw : Legible text w) (hends : Ends more)
    (h : Spells more words) : Spells (text ++ more) (w :: words)

theorem Spells.append {s t : List Char} {xs ys : List Word} (hs : Spells s xs) (ht : Spells t ys)
    (hends : Ends t) : Spells (s ++ t) (xs ++ ys) := by
  induction hs with
  | nil => exact ht
  | blank hc _ ih => exact .blank hc ih
  | word hw hmore _ ih =>
    rw [List.append_assoc]
    exact .word hw (hmore.append hends) ih

theorem Spells.concat {s t : List Char} {xs : List Word} {w : Word} (hs : Spells s xs) (hw : Legible t w) :
    Spells (s ++ ' ' :: t) (xs ++ [w]) := by
  have hlast : Spells (' ' :: (t ++ [])) [w] := .blank (.inl rfl) (.word hw ends_nil .nil)
  rw [List.append_nil] at hlast
  exact hs.append hlast fun c hc => by
    cases hc
    exact .inl rfl

section
variable {rest : List Char} {w : Word} {words : List Word} {wanted : Expected}

theorem token_spells_nil (h : Spells rest []) (hnewlines : wanted.skipsNewlines = false)
    (hkeyword : wanted.keywords = false) (line : Nat) (token : Token) (old : Word) :
    Reader.token commands (n + 2) wanted (reading rest line token false old) =
      .ok (.ending, reading [] line .ending false old) := by
  generalize hwords : ([] : List Word) = words at h
  induction h with
  | nil => exact token_end hnewlines hkeyword line token old
  | blank hc h ih => rw [token_blank hc, ih hwords]
  | word => cases hwords

theorem token_spells_cons (commands : Reading Command) (wanted : Expected) (h : Spells rest (w :: words))
    (hn : rest.length ≤ n) (hnewlines : wanted.skipsNewlines = false)
    (hkeyword : wanted.keywords → ∀ name ∈ w.bare?, name ∉ Token.keywords) (line : Nat) (token : Token) (old : Word) :
    ∃ more line', Spells more words ∧ more.length < rest.length ∧
      Reader.token commands (n + 4) wanted (reading rest line token false old) =
        .ok (.word, reading more line' .word false w) := by
  generalize hwords : w :: words = all at h
  induction h with
  | nil => cases hwords
  | blank hc h ih =>
    rw [List.length_cons] at hn
    obtain ⟨more, line', hmore, hlength, htoken⟩ := ih (by omega) hwords
    exact ⟨more, line', hmore, by rw [List.length_cons]; omega, by rw [token_blank hc, htoken]⟩
  | word hw hends h =>
    cases hwords
    have hpos := hw.length_pos
    rw [List.length_append] at hn
    obtain ⟨line', htoken⟩ := token_legible (n := n + 1) wanted hw (by omega) hends hnewlines hkeyword line token old
    exact ⟨_, line', h, by rw [List.length_append]; omega, htoken⟩

theorem simpleRest_spells (h : Spells rest words) (hn : rest.length ≤ n) (start : Nat) {before : List Word}
    (hbefore : before ≠ []) (line : Nat) (token : Token) (old : Word) :
    ∃ line' last, simpleRest (n + 5) start [] before [] (reading rest line token false old) =
      .ok (.simple start [] (before.reverse ++ words) [], reading [] line' .ending true last) := by
  have hempty : before.isEmpty = false := by simpa using hbefore
  induction words generalizing rest n before line token old with
  | nil =>
    refine ⟨line, old, ?_⟩
    rw [simpleRest, hempty]
    refine (bind_ok (token_spells_nil h rfl rfl line token old)).trans ?_
    rw [List.append_nil]
    rfl
  | cons w words ih =>
    obtain ⟨more, line₁, hmore, hlength, htoken⟩ := token_spells_cons (nested (n + 4)) ⟨false, false, false⟩ h hn rfl
      (fun h => absurd h Bool.false_ne_true) line token old
    obtain ⟨m, rfl⟩ := Nat.exists_eq_add_of_le' (Nat.one_le_of_lt (Nat.lt_of_lt_of_le hlength hn))
    obtain ⟨line₂, last, hrest⟩ := ih (n := m) hmore (by omega) (List.cons_ne_nil w before) line₁ .word w rfl
    refine ⟨line₂, last, ?_⟩
    rw [List.reverse_cons, List.append_assoc] at hrest
    rw [simpleRest, hempty]
    refine (bind_ok htoken).trans ((bind_ok rfl).trans ?_)
    -- behind a first word an assignment is a word like any other
    dsimp only [reading]
    simp only [if_neg hbefore]
    cases assignment? w <;> exact hrest

end

/-- A word that can be the name of a command. -/
structure Names (w : Word) : Prop where
  notKeyword : ∀ name ∈ w.bare?, name ∉ Token.keywords
  notAssignment : assignment? w = none

section
variable {rest : List Char} {w : Word} {words : List Word}

theorem command_spells (hw : Names w) (h : Spells rest words) (hn : rest.length ≤ n) (line : Nat) :
    ∃ line' last, Reader.command (n + 8) .plain (reading rest line .word true w) =
      .ok (.simple line [] (w :: words) [], reading [] line' .ending true last) := by
  obtain ⟨line', last, hrest⟩ := simpleRest_spells h hn line (List.cons_ne_nil w []) line .word w
  have hsimple : simple (n + 7) (reading rest line .word true w) =
      .ok (.simple line [] (w :: words) [], reading [] line' .ending true last) := by
    rw [simple]
    refine (bind_ok rfl).trans ?_
    rw [simpleRest]
    refine (bind_ok (token_held ⟨false, false, true⟩ rfl rfl line .word w)).trans ?_
    refine (bind_ok rfl).trans ?_
    dsimp only [reading]
    rw [hw.notAssignment]
    exact hrest
  refine ⟨line', last, ?_⟩
  rw [Reader.command]
  refine (bind_ok rfl).trans ((bind_ok (token_held .plain rfl rfl line .word w)).trans ?_)
  exact (bind_ok rfl).trans hsimple

theorem andOr_spells (hw : Names w) (h : Spells rest words) (hn : rest.length ≤ n) (line : Nat) :
    ∃ line' last, andOr (n + 10) (reading rest line .word true w) =
      .ok (.simple line [] (w :: words) [], reading [] line' .ending true last) := by
  obtain ⟨line', last, hcommand⟩ := command_spells hw h hn line
  have hstages : ∀ c, stages (n + 8) [c] (reading [] line' .ending true last) =
      .ok ([c], reading [] line' .ending true last) := by
    intro c
    rw [stages]
    exact (bind_ok (token_held .plain rfl rfl line' .ending last)).trans rfl
  have hpipeline : pipeline (n + 9) .plain (reading rest line .word true w) =
      .ok (.simple line [] (w :: words) [], reading [] line' .ending true last) := by
    rw [pipeline]
    refine (bind_ok (token_held .plain rfl rfl line .word w)).trans ?_
    exact (bind_ok rfl).trans ((bind_ok hcommand).trans ((bind_ok (hstages _)).trans rfl))
  refine ⟨line', last, ?_⟩
  rw [andOr]
  refine (bind_ok hpipeline).trans ?_
  rw [andOrRest]
  exact (bind_ok (token_held .plain rfl rfl line' .ending last)).trans rfl

theorem listRest_end (line : Nat) (c : Command) (last : Word) :
    listRest (n + 2) true c (reading [] line .ending true last) = .ok (c, reading [] line .ending true last) := by
  have hdocuments : documents (nested (n + 1)) (n + 1) (reading [] line .ending false last) =
      .ok ((), reading [] line .ending false last) := by
    rw [documents]
    rfl
  rw [listRest]
  refine (bind_ok (token_held .plain rfl rfl line .ending last)).trans ?_
  dsimp only
  rw [if_neg (by simp)]
  exact (bind_ok hdocuments).trans rfl

theorem line_spells (hw : Names w) (h : Spells rest (w :: words)) (hn : rest.length ≤ n) (start : Nat) :
    ∃ line first last, Reader.line (n + 11) (reading rest start .newline false []) =
      .ok (some (.simple first [] (w :: words) []), reading [] line .ending true last) := by
  obtain ⟨more, first, hmore, hlength, htoken⟩ := token_spells_cons (n := n + 6) (nested (n + 10)) ⟨false, true, true⟩ h
    (by omega) rfl (fun _ => hw.notKeyword) start .newline []
  obtain ⟨line, last, handOr⟩ := andOr_spells (n := n) hw hmore (by omega) first
  have hlist : list (n + 11) true false (reading rest start .newline false []) =
      .ok (.simple first [] (w :: words) [], reading [] line .ending true last) := by
    rw [list]
    refine (bind_ok htoken).trans ?_
    refine (bind_ok rfl).trans ?_
    rw [if_neg (by simp)]
    exact (bind_ok handOr).trans (listRest_end line _ last)
  refine ⟨line, first, last, ?_⟩
  rw [Reader.line]
  exact (bind_ok hlist).trans ((bind_ok rfl).trans rfl)

/-- **A command line of legible words is read as these words.** -/
theorem nextLine_spells (hw : Names w) (h : Spells rest (w :: words)) :
    ∃ line first, nextLine false [] ⟨rest, 1⟩ = .ok (some (.simple first [] (w :: words) []), ⟨[], line⟩) := by
  obtain ⟨n, hn⟩ : ∃ n, fuel rest = n + 11 := ⟨fuel rest - 11, by rw [fuel]; omega⟩
  have hlength : rest.length ≤ n := by
    rw [fuel] at hn
    omega
  obtain ⟨line, first, last, hline⟩ := line_spells hw h hlength 1
  refine ⟨line, first, ?_⟩
  change ((Reader.line (fuel rest)).run (reading rest 1 .newline false []) >>= _) = _
  rw [hn, StateT.run, hline]
  rfl

end

/-! ### safe words -/

/-- The words that follow a first one, as they are written. -/
def following (words : List Written) : List Char := words.flatMap fun w => ' ' :: w.text.toList

theorem ends_following (words : List Written) : Ends (following words) := by
  cases words with
  | nil => exact nofun
  | cons w words =>
    rintro c ⟨⟩
    exact .inl rfl

/-- A word that can be the name of a command, as it is written. -/
structure Named (w : Written) (name : String) : Prop where
  eq : w = .bare name
  safe : w.isSafe
  notKeyword : name ∉ Token.keywords
  notAssignment : '=' ∉ name.toList

section
variable {w : Written} {words : List Written} {name : String}

theorem Named.names (hw : Named w name) : Names w.word := by
  have hspan := span_append (p := (· != '=')) []
    (fun c (hc : c ∈ name.toList) => bne_iff_ne.mpr (ne_of_mem_of_not_mem hc hw.notAssignment)) nofun
  rw [List.append_nil] at hspan
  rw [hw.eq]
  refine ⟨fun name' hname => Written.bare?_word hname ▸ hw.notKeyword, ?_⟩
  rw [Written.word, assignment?, hspan]

theorem spells_following (hsafe : ∀ w ∈ words, w.isSafe) : Spells (following words) (words.map Written.word) := by
  induction words with
  | nil => exact .nil
  | cons w words ih =>
    obtain ⟨hw, hwords⟩ := List.forall_mem_cons.mp hsafe
    exact .blank (.inl rfl) (.word (legible_text hw) (ends_following words) (ih hwords))

end

end Reader

end Fleet.Shell
