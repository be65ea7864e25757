import Fleet.Proofs.Shell.Octets
import Fleet.Proofs.Shell.Words
import Mathlib.Data.List.TakeWhile

/-!
# Reading between double quotes

Between double quotes a backquote begins a command, a dollar sign an expansion, and a backslash quotes some of the
characters that may follow it.  A text in which none of this happens is inert: it is read as itself, with one part for
all of it (`parts_inert`), and so is a word that is such a text between double quotes (`legible_doubled`).  All that
means anything there is ASCII, so a text stays inert when it is spelt out in bytes (`isInert_spelling`).
-/

namespace Fleet.Shell

/-- A character that makes the dollar sign before it the beginning of an expansion.  The square bracket is one in some
shells, which read arithmetic there; in others the dollar sign before it stands for itself. -/
def beginsExpansion (c : Char) : Bool :=
  c == '(' || c == '\x7b' || c == '[' || isNameStart c || (special? c).isSome

/-- The characters that a backslash quotes between double quotes; it joins two lines before a newline. -/
def quotable : List Char := ['\\', '$', '\x60', '"', '\n']

/-- Whether a character means nothing but itself between double quotes, before what follows it. -/
def meansItself (c : Char) (rest : List Char) : Bool :=
  match c with
  | '"' | '\x60' => false
  | '$' => !rest.head?.any beginsExpansion
  | '\\' => rest.head?.any (· ∉ quotable)
  | _ => true

/-- Whether nothing in a text means anything but itself between double quotes. -/
def isInert : List Char → Bool
  | [] => true
  | c :: rest => meansItself c rest && isInert rest

namespace Reader

/-- The setting of a text between double quotes in a word of a command. -/
def inQuotes : Setting := inCommand.quoted

variable {commands : Reading Command} {n : Nat} {before : List Part} {x : Scanner} {rest tail : List Char} {c : Char}

theorem join_of_ne (h : ∀ rest, x.rest ≠ '\\' :: '\n' :: rest) : join x = .ok ((), x) := by
  have hjoined : Position.joined x.rest x.line = ⟨x.rest, x.line⟩ := by
    rw [Position.joined.eq_def]
    split
    · rename_i heq
      exact absurd heq (h _)
    · rfl
  change Except.ok ((), { x with rest := _, line := _ }) = _
  rw [hjoined]

/-! ### the parts between double quotes -/

theorem parts_closing (hx : x.rest = '"' :: rest) :
    parts commands (n + 1) inQuotes before x = .ok (before.reverse, { x with rest }) := by
  obtain ⟨_, line, token⟩ := x
  obtain rfl := hx
  rw [parts]
  rfl

theorem parts_newline (hx : x.rest = '\n' :: rest) :
    parts commands (n + 1) inQuotes before x =
      parts commands n inQuotes (add true ['\n'] before) { x with rest, line := x.line + 1 } := by
  obtain ⟨_, line, token⟩ := x
  obtain rfl := hx
  rw [parts]
  rfl

theorem parts_backslash (hc : c ∉ quotable) (hx : x.rest = '\\' :: c :: rest) :
    parts commands (n + 1) inQuotes before x =
      parts commands n inQuotes (add true ['\\', c] before) { x with rest } := by
  simp only [quotable, List.mem_cons, List.not_mem_nil, or_false, not_or] at hc
  have hkept : inQuotes.keepsBackslash c = true := by
    simp [Setting.keepsBackslash, inQuotes, Setting.quoted, inCommand, Setting.isQuoted, hc]
  have hjoined : ∀ more, x.rest ≠ '\\' :: '\n' :: more := fun more h =>
    hc.2.2.2.2 (List.cons.inj (List.cons.inj (hx.symm.trans h)).2).1
  rw [parts]
  refine (bind_ok (join_of_ne hjoined)).trans ((bind_ok rfl).trans ?_)
  simp only [hx, hkept]
  rfl

theorem dollar_none (h : ∀ c ∈ x.rest.head?, beginsExpansion c = false)
    (hjoined : ∀ rest, x.rest ≠ '\\' :: '\n' :: rest) : dollar commands (n + 1) inQuotes x = .ok (none, x) := by
  rw [dollar]
  refine (bind_ok (join_of_ne hjoined)).trans ((bind_ok rfl).trans ?_)
  generalize x.rest = rest at h
  split
  case h_1 => exact absurd (h '(' rfl) (by decide)
  case h_2 => exact absurd (h '\x7b' rfl) (by decide)
  case h_3 c rest _ _ =>
    have hc := h c rfl
    simp only [beginsExpansion, Bool.or_eq_false_iff, Option.isSome_eq_false_iff, Option.isNone_iff_eq_none] at hc
    obtain ⟨⟨-, hname⟩, hspecial⟩ := hc
    simp only [hname, hspecial]
    rfl
  case h_4 => rfl

theorem parts_dollar (h : ∀ c ∈ rest.head?, beginsExpansion c = false) (hjoined : ∀ more, rest ≠ '\\' :: '\n' :: more)
    (hx : x.rest = '$' :: rest) :
    parts commands (n + 2) inQuotes before x =
      parts commands (n + 1) inQuotes (add true ['$'] before) { x with rest } := by
  obtain ⟨_, line, token⟩ := x
  obtain rfl := hx
  rw [parts]
  refine (bind_ok rfl).trans ((bind_ok rfl).trans ((bind_ok rfl).trans ?_))
  exact (bind_ok (dollar_none h hjoined)).trans rfl

/-! ### inert texts -/

theorem isInert_suffix {s t : List Char} (h : isInert (s ++ t)) : isInert t := by
  induction s with
  | nil => exact h
  | cons c s ih =>
    rw [List.cons_append, isInert, Bool.and_eq_true] at h
    exact ih h.2

theorem not_joined_of_isInert {s : List Char} (h : isInert s) (more : List Char) :
    s ++ '"' :: tail ≠ '\\' :: '\n' :: more := by
  intro heq
  match s with
  | [] => cases heq
  | [_] => cases heq
  | _ :: _ :: s =>
    cases heq
    cases h

theorem not_expanded_of_meansItself {s : List Char} (h : meansItself '$' s) :
    ∀ c ∈ (s ++ '"' :: tail).head?, beginsExpansion c = false := by
  intro c hc
  cases s with
  | nil =>
    cases hc
    decide
  | cons d s =>
    cases hc
    simpa [meansItself] using h

theorem eq_of_isMeant {s : List Char} (hmeant : inQuotes.isMeant c = true) (h : meansItself c s) :
    c = '\\' ∨ c = '$' ∨ c = '\n' := by
  simp only [inQuotes, inCommand, Setting.quoted, Setting.isMeant, List.mem_cons, List.not_mem_nil, or_false,
    Bool.or_eq_true, decide_eq_true_eq, beq_iff_eq] at hmeant
  rcases hmeant with (rfl | rfl | rfl | rfl) | rfl
  · exact .inl rfl
  · exact .inr (.inl rfl)
  · cases h
  · exact .inr (.inr rfl)
  · cases h

theorem exists_run (s tail : List Char) :
    ∃ run more, s = run ++ more ∧ (∀ d ∈ run, inQuotes.isMeant d = false) ∧
      ∀ d ∈ (more ++ '"' :: tail).head?, inQuotes.isMeant d = true := by
  let isPlain := fun d => !inQuotes.isMeant d
  refine ⟨s.takeWhile isPlain, s.dropWhile isPlain, List.takeWhile_append_dropWhile.symm, fun d hd => ?_,
    fun d hd => ?_⟩
  · simpa [isPlain] using List.mem_takeWhile_imp hd
  · have hhead := List.head?_dropWhile_not isPlain s
    cases hrest : s.dropWhile isPlain with
    | nil =>
      rw [hrest] at hd
      cases hd
      rfl
    | cons e more =>
      rw [hrest] at hd hhead
      cases hd
      simpa [isPlain] using hhead

/-- **An inert text between double quotes is read as itself.** -/
theorem parts_inert {s t : List Char} (h : isInert s) (hn : s.length < n) (hx : x.rest = s ++ '"' :: tail) :
    ∃ line, parts commands n inQuotes [.text true t] x =
      .ok ([.text true (t ++ s)], { x with rest := tail, line }) := by
  induction n generalizing s t x with
  | zero => omega
  | succ n ih =>
    -- a step that takes some characters leaves an inert text
    have hstep : ∀ taken more line, isInert more → more.length < n →
        parts commands (n + 1) inQuotes [.text true t] x =
          parts commands n inQuotes [.text true (t ++ taken)] { x with rest := more ++ '"' :: tail, line } →
        ∃ line, parts commands (n + 1) inQuotes [.text true t] x =
          .ok ([.text true (t ++ (taken ++ more))], { x with rest := tail, line }) := by
      intro taken more line hmore hlength htaken
      obtain ⟨line', hparts⟩ := ih (t := t ++ taken) (x := { x with rest := more ++ '"' :: tail, line }) hmore
        hlength rfl
      rw [List.append_assoc] at hparts
      exact ⟨line', htaken.trans hparts⟩
    cases s with
    | nil =>
      rw [List.append_nil]
      exact ⟨x.line, parts_closing hx⟩
    | cons c s =>
      obtain ⟨hc, hs⟩ := (Bool.and_eq_true ..).mp h
      rw [List.length_cons] at hn
      cases hmeant : inQuotes.isMeant c with
      | false =>
        obtain ⟨run, more, rfl, hrun, hmore⟩ := exists_run s tail
        rw [List.length_append] at hn
        exact hstep (c :: run) more x.line (isInert_suffix hs) (by omega)
          (parts_bare (List.forall_mem_cons.mpr ⟨hmeant, hrun⟩) hmore (by simpa using hx))
      | true =>
        rcases eq_of_isMeant hmeant hc with rfl | rfl | rfl
        · cases s with
          | nil => cases hc
          | cons d s =>
            have hd : d ∉ quotable := by simpa [meansItself] using hc
            rw [List.length_cons] at hn
            exact hstep ['\\', d] s x.line (isInert_suffix (s := [d]) hs) (by omega) (parts_backslash hd hx)
        · obtain ⟨m, rfl⟩ := Nat.exists_eq_add_of_le' (Nat.one_le_of_lt (Nat.lt_of_succ_lt_succ hn))
          exact hstep ['$'] s x.line hs (by omega)
            (parts_dollar (not_expanded_of_meansItself hc) (not_joined_of_isInert hs) hx)
        · exact hstep ['\n'] s (x.line + 1) hs (by omega) (parts_newline hx)

theorem unmarked_text (chars : List Char) : unmarked [.text true chars] = [.text true chars] := by
  cases chars <;> rfl

theorem parts_doubled (hx : x.rest = '"' :: rest) :
    parts commands (n + 1) inCommand before x =
      (do
        let inner ← parts commands n inQuotes [.text true []]
        parts commands n inCommand ((unmarked inner).reverse ++ before) : Reading Word) { x with rest } := by
  obtain ⟨_, line, token⟩ := x
  obtain rfl := hx
  rw [parts]
  rfl

theorem legible_doubled {t : String} (h : isInert t.toList) :
    Legible ('"' :: (t.toList ++ ['"'])) (Written.quoted t).word where
  begins := ⟨'"', _, rfl, by decide⟩
  parts {commands n x tail} hn htail hx := by
    simp only [List.length_cons, List.length_append, List.length_nil] at hn
    obtain ⟨m, rfl⟩ : ∃ m, n = m + 2 := ⟨n - 2, by omega⟩
    have hrest : x.rest = '"' :: (t.toList ++ '"' :: tail) := by simpa using hx
    obtain ⟨line, hparts⟩ := parts_inert (n := m + 1) (x := { x with rest := t.toList ++ '"' :: tail })
      (t := []) h (by omega) rfl
    refine ⟨line, (parts_doubled hrest).trans ((bind_ok hparts).trans ?_)⟩
    rw [List.nil_append, unmarked_text]
    exact parts_end (x := { x with rest := tail, line }) htail

end Reader

/-! ### inert texts in bytes -/

section
variable {c d : Char} {rest : List Char}

theorem ne_of_large (hc : 0x80 ≤ c.toNat) (hd : d.toNat < 0x80) : c ≠ d := by
  rintro rfl
  omega

theorem beginsExpansion_large (hc : 0x80 ≤ c.toNat) : beginsExpansion c = false := by
  have hval : 0x80 ≤ c.val.toNat := hc
  have hname : isNameStart c = false := by
    rw [isNameStart]
    delta Char.isAlpha Char.isUpper Char.isLower
    simp [UInt32.le_iff_toNat_le, ne_of_large hc]
    omega
  have hspecial : special? c = none := by
    unfold special?
    split
    all_goals first | exact absurd hc (by decide) | skip
    simp [Char.isDigit, UInt32.le_iff_toNat_le]
    omega
  simp [beginsExpansion, hname, hspecial, ne_of_large hc]

theorem meansItself_large (hc : 0x80 ≤ c.toNat) : meansItself c rest = true := by
  unfold meansItself
  split
  all_goals first | exact absurd hc (by decide) | rfl

theorem meansItself_before_large (h : meansItself c rest = true) (hd : 0x80 ≤ d.toNat) (more : List Char) :
    meansItself c (d :: more) = true := by
  have hascii : ∀ e ∈ quotable, e.toNat < 0x80 := by simp [quotable]
  have hquotable : d ∉ quotable := fun hmem => Nat.not_lt.mpr hd (hascii d hmem)
  unfold meansItself at h ⊢
  split <;> simp_all [beginsExpansion_large hd]

theorem isInert_append_large {s : List Char} (hs : ∀ e ∈ s, 0x80 ≤ e.toNat) (hrest : isInert rest) :
    isInert (s ++ rest) := by
  induction s with
  | nil => exact hrest
  | cons e s ih =>
    obtain ⟨he, hs⟩ := List.forall_mem_cons.mp hs
    rw [List.cons_append, isInert, meansItself_large he, ih hs]
    rfl

theorem meansItself_spelling (h : meansItself c rest = true) :
    meansItself c (rest.flatMap Octets.spelling) = true := by
  cases rest with
  | nil => exact h
  | cons d more =>
    rw [List.flatMap_cons]
    by_cases hd : d.toNat < 0x80
    · rw [Octets.spelling_ascii hd]
      exact h
    · obtain ⟨e, es, hspelling⟩ := List.exists_cons_of_ne_nil (Octets.spelling_ne_nil d)
      have he := Octets.not_ascii_of_mem_spelling (Nat.le_of_not_lt hd) (hspelling ▸ List.mem_cons_self)
      rw [hspelling]
      exact meansItself_before_large h he _

end

theorem isInert_spelling {s : List Char} (h : isInert s) : isInert (s.flatMap Octets.spelling) := by
  induction s with
  | nil => rfl
  | cons c rest ih =>
    obtain ⟨hc, hrest⟩ := (Bool.and_eq_true ..).mp h
    rw [List.flatMap_cons]
    by_cases hascii : c.toNat < 0x80
    · rw [Octets.spelling_ascii hascii, List.singleton_append, isInert, meansItself_spelling hc, ih hrest]
      rfl
    · exact isInert_append_large (fun e he => Octets.not_ascii_of_mem_spelling (Nat.le_of_not_lt hascii) he) (ih hrest)

end Fleet.Shell
