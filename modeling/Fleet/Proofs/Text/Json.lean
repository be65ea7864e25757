import Mathlib.Data.String.Basic
import Fleet.Proofs.Yaml.Plain
import Fleet.Text.Json

/-!
# Reading JSON texts

A reader of JSON texts, with blanks between the tokens and integers as the only numbers: `read?` gives the value of a
text that is one value and nothing else but blanks.  A rendered value is read as itself (`read?_render`), so what has
been written is a JSON document, and tells all of the value.
-/

namespace Fleet.Text.JsonValue

/-! ### the reader -/

/-- A character that may stand between tokens. -/
def isBlank (c : Char) : Bool := c = ' ' || c = '\n' || c = '\r' || c = '\t'

def skip (s : List Char) : List Char := s.dropWhile isBlank

/-- The character that a letter behind a backslash stands for. -/
def escaped? (letter : Char) : Option Char :=
  match letter with
  | '"' => some '"'
  | '\\' => some '\\'
  | '/' => some '/'
  | 'b' => some '\x08'
  | 'f' => some '\x0c'
  | 'n' => some '\n'
  | 'r' => some '\r'
  | 't' => some '\t'
  | _ => none

/-- The character whose number hexadecimal digits spell. -/
def numbered? (digits : List Char) : Option Char :=
  match Yaml.radixNumber? 16 digits with
  | some n => if n.isValidChar then some (.ofNat n) else none
  | none => none

/-- The characters up to the closing quote, and what is behind it. -/
def readText : List Char → Option (List Char × List Char)
  | '"' :: rest => some ([], rest)
  | '\\' :: 'u' :: a :: b :: c :: d :: rest =>
    (numbered? [a, b, c, d]).bind fun x => (readText rest).map fun (chars, rest) => (x :: chars, rest)
  | '\\' :: letter :: rest => (escaped? letter).bind fun x => (readText rest).map fun (chars, rest) => (x :: chars, rest)
  | x :: rest =>
    if x = '\\' ∨ x.toNat < 0x20 then none else (readText rest).map fun (chars, rest) => (x :: chars, rest)
  | [] => none

/-- The natural number at the beginning of a text, and what is behind it. -/
def readNatural (s : List Char) : Option (Nat × List Char) :=
  (Yaml.natural? (s.takeWhile Char.isDigit)).map (·, s.dropWhile Char.isDigit)

mutual

/-- The value at the beginning of a text, and what is behind it; the number bounds the depth and the items. -/
def readValue : Nat → List Char → Option (JsonValue × List Char)
  | 0, _ => none
  | n + 1, s =>
    match skip s with
    | 'n' :: 'u' :: 'l' :: 'l' :: rest => some (.null, rest)
    | 't' :: 'r' :: 'u' :: 'e' :: rest => some (.bool true, rest)
    | 'f' :: 'a' :: 'l' :: 's' :: 'e' :: rest => some (.bool false, rest)
    | '"' :: rest => (readText rest).map fun (chars, rest) => (.text (.ofList chars), rest)
    | '[' :: rest =>
      match skip rest with
      | ']' :: rest => some (.list [], rest)
      | _ => (readItems n rest).map fun (items, rest) => (.list items, rest)
    | '\x7b' :: rest =>
      match skip rest with
      | '\x7d' :: rest => some (.object [], rest)
      | _ => (readMembers n rest).map fun (members, rest) => (.object members, rest)
    | '-' :: rest => (readNatural rest).map fun (k, rest) => (.number (-k), rest)
    | rest => (readNatural rest).map fun (k, rest) => (.number k, rest)

/-- The items of a list up to its end, at least one. -/
def readItems : Nat → List Char → Option (List JsonValue × List Char)
  | 0, _ => none
  | n + 1, s =>
    match readValue n s with
    | some (v, rest) =>
      match skip rest with
      | ',' :: rest => (readItems n rest).map fun (items, rest) => (v :: items, rest)
      | ']' :: rest => some ([v], rest)
      | _ => none
    | none => none

/-- The members of an object up to its end, at least one. -/
def readMembers : Nat → List Char → Option (List (String × JsonValue) × List Char)
  | 0, _ => none
  | n + 1, s =>
    match skip s with
    | '"' :: rest =>
      match readText rest with
      | some (key, rest) =>
        match skip rest with
        | ':' :: rest =>
          match readValue n rest with
          | some (v, rest) =>
            match skip rest with
            | ',' :: rest => (readMembers n rest).map fun (members, rest) => ((.ofList key, v) :: members, rest)
            | '\x7d' :: rest => some ([(.ofList key, v)], rest)
            | _ => none
          | none => none
        | _ => none
      | none => none
    | _ => none

end

def read? (s : String) : Option JsonValue :=
  match readValue s.toList.length s.toList with
  | some (v, rest) => if skip rest = [] then some v else none
  | none => none

/-! ### texts -/

theorem skip_cons {c : Char} (h : isBlank c = false) (rest : List Char) : skip (c :: rest) = c :: rest := by
  rw [skip, List.dropWhile_cons, h]
  rfl

theorem readText_plain {c : Char} (hquote : c ≠ '"') (hslash : c ≠ '\\') (hcontrol : ¬ c.toNat < 0x20) (rest : List Char) :
    readText (c :: rest) = (readText rest).map fun (chars, rest) => (c :: chars, rest) := by
  rw [readText.eq_def]
  split <;> simp_all

theorem numbered?_hexDigit {n : Nat} (h : n < 0x20) :
    numbered? ['0', '0', hexDigit (n / 16), hexDigit (n % 16)] = some (.ofNat n) := by
  revert h n
  decide +kernel

theorem readText_escape (c : Char) (rest : List Char) :
    readText (escape c ++ rest) = (readText rest).map fun (chars, rest) => (c :: chars, rest) := by
  unfold escape
  split
  case h_8 hquote hslash _ _ _ _ _ =>
    -- a control character is written by its number, any other character as it is
    split
    · rename_i hcontrol
      simp only [List.cons_append, List.nil_append, readText, numbered?_hexDigit hcontrol, Option.bind_some]
      rw [Char.ofNat_toNat]
    · exact readText_plain hquote hslash ‹_› rest
  all_goals rfl

theorem readText_flatMap (chars rest : List Char) :
    readText (chars.flatMap escape ++ '"' :: rest) = some (chars, rest) := by
  induction chars with
  | nil => rfl
  | cons c chars ih => rw [List.flatMap_cons, List.append_assoc, readText_escape, ih, Option.map_some]

/-! ### numbers -/

def Ended (rest : List Char) : Prop := ∀ c ∈ rest.head?, c.isDigit = false

theorem ended_cons {c : Char} (h : c.isDigit = false) (rest : List Char) : Ended (c :: rest) := by
  rintro _ ⟨⟩
  exact h

theorem readNatural_toDigits (n : Nat) {rest : List Char} (h : Ended rest) :
    readNatural (Nat.toDigits 10 n ++ rest) = some (n, rest) := by
  have hdigits : ∀ c ∈ Nat.toDigits 10 n, c.isDigit := fun c hc =>
    Nat.isDigit_of_mem_toDigits (by decide) (by decide) hc
  have htake : rest.takeWhile Char.isDigit = [] ∧ rest.dropWhile Char.isDigit = rest := by
    cases rest with
    | nil => exact ⟨rfl, rfl⟩
    | cons c rest => simp [h c rfl]
  rw [readNatural, List.takeWhile_append_of_pos hdigits, List.dropWhile_append_of_pos hdigits, htake.1, htake.2,
    List.append_nil, Yaml.natural?_toDigits]
  rfl

theorem isBlank_digit {c : Char} (h : c.isDigit = true) : isBlank c = false := by
  refine Bool.eq_false_iff.mpr fun hblank => ?_
  simp only [isBlank, Bool.or_eq_true, decide_eq_true_eq] at hblank
  rcases hblank with ((rfl | rfl) | rfl) | rfl <;> cases h

theorem readValue_digits (n k : Nat) {rest : List Char} (h : Ended rest) :
    readValue (n + 1) (Nat.toDigits 10 k ++ rest) = some (.number k, rest) := by
  obtain ⟨c, digits, hcons⟩ := List.exists_cons_of_ne_nil (Nat.toDigits_ne_nil (b := 10) (n := k))
  have hc : c.isDigit = true := Nat.isDigit_of_mem_toDigits (by decide) (by decide) (hcons ▸ List.mem_cons_self)
  have hread := readNatural_toDigits k h
  rw [hcons, List.cons_append] at hread ⊢
  rw [readValue, skip_cons (isBlank_digit hc)]
  -- no other kind of value begins with a digit
  split
  case h_8 => rw [hread]; rfl
  all_goals
    rename_i heq
    obtain ⟨rfl, -⟩ := List.cons.inj heq
    cases hc

/-! ### rendered values -/

def itemsText (items : List JsonValue) : List Char := [','].intercalate ((renderItems items).map String.toList)

/-- The members of an object between its brackets. -/
def membersText (members : List (String × JsonValue)) : List Char :=
  [','].intercalate ((renderMembers members).map String.toList)

theorem toList_render_list (items : List JsonValue) :
    (list items).render.toList = '[' :: (itemsText items ++ [']']) := by
  simp only [render, String.toList_append, String.toList_intercalate]
  rfl

theorem toList_render_object (members : List (String × JsonValue)) :
    (object members).render.toList = '\x7b' :: (membersText members ++ ['\x7d']) := by
  simp only [render, String.toList_append, String.toList_intercalate]
  rfl

theorem toList_quote (s : String) : (quote s).toList = '"' :: (s.toList.flatMap escape ++ ['"']) := by
  rw [quote, String.toList_ofList]
  rfl

theorem itemsText_singleton (v : JsonValue) : itemsText [v] = v.render.toList := by
  simp [itemsText, renderItems]

theorem itemsText_cons_cons (v w : JsonValue) (items : List JsonValue) :
    itemsText (v :: w :: items) = v.render.toList ++ ',' :: itemsText (w :: items) := by
  simp [itemsText, renderItems, List.intercalate_cons_cons]

def keyText (key : String) : List Char := '"' :: (key.toList.flatMap escape ++ ['"', ':'])

theorem membersText_singleton (key : String) (v : JsonValue) :
    membersText [(key, v)] = keyText key ++ v.render.toList := by
  simp [membersText, renderMembers, keyText, toList_quote]

theorem membersText_cons_cons (key : String) (v : JsonValue) (w : String × JsonValue)
    (members : List (String × JsonValue)) :
    membersText ((key, v) :: w :: members) = keyText key ++ v.render.toList ++ ',' :: membersText (w :: members) := by
  simp [membersText, renderMembers, keyText, toList_quote, List.intercalate_cons_cons]

theorem toList_render_natural (k : Nat) : (number k).render.toList = Nat.toDigits 10 k := by
  rw [render]
  exact Nat.toList_repr

theorem toList_render_negative (k : Nat) : (number (.negSucc k)).render.toList = '-' :: Nat.toDigits 10 (k + 1) := by
  rw [render, Int.toString_eq_repr, Int.repr, String.toList_append, Nat.toList_repr]
  rfl

theorem render_eq_cons (v : JsonValue) : ∃ c rest, v.render.toList = c :: rest ∧ isBlank c = false ∧ c ≠ ']' := by
  cases v with
  | null => exact ⟨'n', _, rfl, rfl, by decide⟩
  | bool b => cases b <;> exact ⟨_, _, rfl, rfl, by decide⟩
  | number k =>
    cases k with
    | ofNat k =>
      obtain ⟨c, digits, hcons⟩ := List.exists_cons_of_ne_nil (Nat.toDigits_ne_nil (b := 10) (n := k))
      have hc : c.isDigit = true := Nat.isDigit_of_mem_toDigits (by decide) (by decide) (hcons ▸ List.mem_cons_self)
      exact ⟨c, digits, (toList_render_natural k).trans hcons, isBlank_digit hc, by rintro rfl; cases hc⟩
    | negSucc k => exact ⟨'-', _, toList_render_negative k, rfl, by decide⟩
  | text s => exact ⟨'"', _, toList_quote s, rfl, by decide⟩
  | list items => exact ⟨'[', _, toList_render_list items, rfl, by decide⟩
  | object members => exact ⟨'\x7b', _, toList_render_object members, rfl, by decide⟩

theorem itemsText_eq_cons (v : JsonValue) (items : List JsonValue) :
    ∃ c rest, itemsText (v :: items) = c :: rest ∧ isBlank c = false ∧ c ≠ ']' := by
  obtain ⟨c, rest, hcons, hc⟩ := render_eq_cons v
  cases items with
  | nil => exact ⟨c, rest, (itemsText_singleton v).trans hcons, hc⟩
  | cons w items => exact ⟨c, _, by rw [itemsText_cons_cons, hcons, List.cons_append], hc⟩

theorem membersText_eq_cons (w : String × JsonValue) (members : List (String × JsonValue)) :
    ∃ rest, membersText (w :: members) = '"' :: rest := by
  obtain ⟨key, v⟩ := w
  cases members with
  | nil => exact ⟨_, membersText_singleton key v⟩
  | cons w members => exact ⟨_, membersText_cons_cons key v w members⟩

/-! ### the round trip -/

theorem readValue_list {n : Nat} {items : List JsonValue} {rest : List Char}
    (h : items ≠ [] → readItems n (itemsText items ++ ']' :: rest) = some (items, rest)) :
    readValue (n + 1) ((list items).render.toList ++ rest) = some (.list items, rest) := by
  rw [toList_render_list, List.cons_append, List.append_assoc, readValue, skip_cons rfl]
  cases items with
  | nil => rfl
  | cons v items =>
    have hread := h (List.cons_ne_nil v items)
    obtain ⟨c, more, hcons, hblank, hne⟩ := itemsText_eq_cons v items
    simp only [List.singleton_append]
    rw [hcons, List.cons_append] at hread ⊢
    rw [skip_cons hblank]
    split
    · rename_i heq
      exact absurd (List.cons.inj heq).1 hne
    · rw [hread]
      rfl

theorem readValue_object {n : Nat} {members : List (String × JsonValue)} {rest : List Char}
    (h : members ≠ [] → readMembers n (membersText members ++ '\x7d' :: rest) = some (members, rest)) :
    readValue (n + 1) ((object members).render.toList ++ rest) = some (.object members, rest) := by
  rw [toList_render_object, List.cons_append, List.append_assoc, readValue, skip_cons rfl]
  cases members with
  | nil => rfl
  | cons w members =>
    have hread := h (List.cons_ne_nil w members)
    obtain ⟨more, hcons⟩ := membersText_eq_cons w members
    simp only [List.singleton_append]
    rw [hcons, List.cons_append] at hread ⊢
    rw [skip_cons rfl]
    simp only [hread, Option.map_some]
    rfl

theorem readMembers_key (n : Nat) (key : String) (s : List Char) :
    readMembers (n + 1) (keyText key ++ s) =
      match readValue n s with
      | some (v, rest) =>
        match skip rest with
        | ',' :: rest => (readMembers n rest).map fun (members, rest) => ((key, v) :: members, rest)
        | '\x7d' :: rest => some ([(key, v)], rest)
        | _ => none
      | none => none := by
  have hkey : keyText key ++ s = '"' :: (key.toList.flatMap escape ++ '"' :: ':' :: s) := by simp [keyText]
  rw [hkey, readMembers, skip_cons rfl]
  simp only [readText_flatMap, skip_cons (show isBlank ':' = false from rfl), String.ofList_toList]

/-- Texts of so many characters are read in as many steps. -/
structure Reads (n : Nat) : Prop where
  value : ∀ (v : JsonValue) (rest : List Char), v.render.toList.length ≤ n → Ended rest →
    readValue n (v.render.toList ++ rest) = some (v, rest)
  items : ∀ (items : List JsonValue) (rest : List Char), items ≠ [] → (itemsText items).length < n →
    readItems n (itemsText items ++ ']' :: rest) = some (items, rest)
  members : ∀ (members : List (String × JsonValue)) (rest : List Char), members ≠ [] →
    (membersText members).length < n → readMembers n (membersText members ++ '\x7d' :: rest) = some (members, rest)

namespace Reads

variable {n : Nat}

theorem zero : Reads 0 where
  value v rest hlength := by
    obtain ⟨c, more, hcons, -⟩ := render_eq_cons v
    simp [hcons] at hlength
  items _ _ _ hlength := absurd hlength (Nat.not_lt_zero _)
  members _ _ _ hlength := absurd hlength (Nat.not_lt_zero _)

theorem value_succ (h : Reads n) (v : JsonValue) (rest : List Char) (hlength : v.render.toList.length ≤ n + 1)
    (hrest : Ended rest) : readValue (n + 1) (v.render.toList ++ rest) = some (v, rest) := by
  cases v with
  | null => rfl
  | bool b => cases b <;> rfl
  | number k =>
    cases k with
    | ofNat k =>
      have htext : (number (.ofNat k)).render.toList = Nat.toDigits 10 k := toList_render_natural k
      rw [htext]
      exact readValue_digits n k hrest
    | negSucc k =>
      rw [toList_render_negative, List.cons_append, readValue, skip_cons rfl]
      simp only [readNatural_toDigits (k + 1) hrest, Option.map_some]
      rfl
  | text s =>
    have hquote : (JsonValue.text s).render.toList ++ rest = '"' :: (s.toList.flatMap escape ++ '"' :: rest) := by
      simp [render, toList_quote]
    rw [hquote, readValue, skip_cons rfl]
    simp only [readText_flatMap, Option.map_some, String.ofList_toList]
  | list items =>
    rw [toList_render_list, List.length_cons, List.length_append, List.length_singleton] at hlength
    exact readValue_list fun hne => h.items items rest hne (by omega)
  | object members =>
    rw [toList_render_object, List.length_cons, List.length_append, List.length_singleton] at hlength
    exact readValue_object fun hne => h.members members rest hne (by omega)

theorem items_succ (h : Reads n) (items : List JsonValue) (rest : List Char) (hne : items ≠ [])
    (hlength : (itemsText items).length < n + 1) :
    readItems (n + 1) (itemsText items ++ ']' :: rest) = some (items, rest) := by
  obtain ⟨v, items, rfl⟩ := List.exists_cons_of_ne_nil hne
  cases items with
  | nil =>
    rw [itemsText_singleton] at hlength ⊢
    rw [readItems, h.value v _ (by omega) (ended_cons rfl rest)]
    rfl
  | cons w items =>
    rw [itemsText_cons_cons, List.length_append, List.length_cons] at hlength
    rw [itemsText_cons_cons, List.append_assoc, List.cons_append, readItems, h.value v _ (by omega) (ended_cons rfl _)]
    simp only [skip_cons (show isBlank ',' = false from rfl), h.items (w :: items) rest (List.cons_ne_nil _ _) (by omega),
      Option.map_some]

theorem members_succ (h : Reads n) (members : List (String × JsonValue)) (rest : List Char) (hne : members ≠ [])
    (hlength : (membersText members).length < n + 1) :
    readMembers (n + 1) (membersText members ++ '\x7d' :: rest) = some (members, rest) := by
  obtain ⟨⟨key, v⟩, members, rfl⟩ := List.exists_cons_of_ne_nil hne
  cases members with
  | nil =>
    rw [membersText_singleton, List.length_append] at hlength
    rw [membersText_singleton, List.append_assoc, readMembers_key, h.value v _ (by omega) (ended_cons rfl rest)]
    rfl
  | cons w members =>
    rw [membersText_cons_cons, List.length_append, List.length_append, List.length_cons] at hlength
    rw [membersText_cons_cons, List.append_assoc, List.append_assoc, List.cons_append, readMembers_key,
      h.value v _ (by omega) (ended_cons rfl _)]
    simp only [skip_cons (show isBlank ',' = false from rfl),
      h.members (w :: members) rest (List.cons_ne_nil _ _) (by omega), Option.map_some]

end Reads

/-- The number of steps bounds what is read, and a value has fewer characters than the text that it is a part of. -/
theorem reads (n : Nat) : Reads n := by
  induction n with
  | zero => exact .zero
  | succ n ih => exact ⟨ih.value_succ, ih.items_succ, ih.members_succ⟩

/-- **Rendered values are read as themselves.** -/
theorem read?_render (v : JsonValue) : read? v.render = some v := by
  have hread := (reads v.render.toList.length).value v [] (Nat.le_refl _) nofun
  rw [List.append_nil] at hread
  rw [read?, hread]
  rfl

end Fleet.Text.JsonValue
