import Fleet.Yaml.Cursor
import Fleet.Yaml.Token

/-!
# Reading anchors, tags and directives

Each is read from the cursor at its first mark.
-/

namespace Fleet.Yaml

/-- The name of an anchor or an alias, read behind its mark. -/
def readName (c : Cursor) : Option (String × Cursor) :=
  let (name, c) := c.spanWhile isWord
  if name.isEmpty || !(isGap c.peek || "?:,]\x7d%@\x60".toList.contains c.peek) then none
  else some (String.ofList name, c)

/-! ### tags -/

/-- The bytes that follow the first byte of a character in UTF-8. -/
def followers? (byte : Nat) : Option Nat :=
  if byte < 0x80 then some 0
  else if 0xC0 ≤ byte && byte < 0xE0 then some 1
  else if 0xE0 ≤ byte && byte < 0xF0 then some 2
  else if 0xF0 ≤ byte && byte < 0xF8 then some 3
  else none

/-- A byte written as a percent sign and two hexadecimal digits. -/
def readEscapedByte (c : Cursor) : Option (Nat × Cursor) := do
  if c.peek = '%' then
    let high ← hexValue? (c.peekAt 1)
    let low ← hexValue? (c.peekAt 2)
    some (16 * high + low, c.skip 3)
  else none

/-- The bytes after the first of an escaped character, added to the number its first byte began. -/
def readFollowers : Nat → Nat → Cursor → Option (Nat × Cursor)
  | 0, n, c => some (n, c)
  | count + 1, n, c => do
    let (byte, c) ← readEscapedByte c
    if 0x80 ≤ byte && byte < 0xC0 then readFollowers count (64 * n + (byte - 0x80)) c else none

def readEscapedChar (c : Cursor) : Option (Char × Cursor) := do
  let (byte, c) ← readEscapedByte c
  let count ← followers? byte
  let head := if count = 0 then byte else byte % (1 <<< (6 - count))
  let (n, c) ← readFollowers count head c
  some (if n.isValidChar then Char.ofNat n else '\uFFFD', c)

def readTagChars (brackets : Bool) : Nat → Cursor → Option (List Char × Cursor)
  | 0, c => some ([], c)
  | fuel + 1, c =>
    let goOn := fun (x : Char) (c : Cursor) =>
      (readTagChars brackets fuel c).map fun (s, c) => (x :: s, c)
    if c.peek = '%' then
      match readEscapedChar c with
      | some (x, c) => goOn x c
      | none => none
    else if isTagChar brackets c.peek then goOn c.peek (c.skip 1)
    else some ([], c)

/-- The characters of a tag, at least one of them. -/
def readTagText (brackets : Bool) (c : Cursor) : Option (List Char × Cursor) := do
  let (s, c) ← readTagChars brackets c.rest.length c
  if s.isEmpty then none else some (s, c)

/-- A handle: an exclamation mark, or two with a word between them; if the second is missing, what was read
so far and `false`. -/
def readHandle (c : Cursor) : Option (List Char × Bool × Cursor) :=
  if c.peek = '!' then
    let (word, c) := (c.skip 1).spanWhile isWord
    if c.peek = '!' then some ('!' :: word ++ ['!'], true, c.skip 1) else some ('!' :: word, false, c)
  else none

/-- A tag: verbatim between angle brackets, behind a handle, or behind the primary handle.  A lone exclamation
mark is a tag of its own. -/
def readTagParts (c : Cursor) : Option (List Char × List Char × Cursor) := do
  if c.peekAt 1 = '<' then
    let (suffix, c) ← readTagText true (c.skip 2)
    if c.peek = '>' then some ([], suffix, c.skip 1) else none
  else
    let (handle, isClosed, c) ← readHandle c
    if isClosed then
      let (suffix, c) ← readTagText false c
      some (handle, suffix, c)
    else
      let (more, c) ← readTagChars false c.rest.length c
      let suffix := handle.drop 1 ++ more
      if suffix.isEmpty then some ([], ['!'], c) else some (['!'], suffix, c)

/-- A tag and the gap that must follow it. -/
def readTag (inFlow : Bool) (c : Cursor) : Option (TagText × Cursor) := do
  let (handle, suffix, c) ← readTagParts c
  if isGap c.peek || (inFlow && c.peek = ',') then
    some (⟨String.ofList handle, String.ofList suffix⟩, c)
  else none

/-! ### directives -/

/-- A number of one to nine digits. -/
def readVersionNumber (c : Cursor) : Option (Nat × Cursor) :=
  let (digits, c) := c.spanWhile Char.isDigit
  if digits.isEmpty || 9 < digits.length then none
  else some (digits.foldl (fun n d => 10 * n + (d.toNat - '0'.toNat)) 0, c)

def readVersion (c : Cursor) : Option (Token × Cursor) := do
  let (major, c) ← readVersionNumber (c.skipWhile isSpace)
  if c.peek = '.' then
    let (minor, c) ← readVersionNumber (c.skip 1)
    some (.versionDirective major minor, c)
  else none

/-- What a tag directive says: a handle and what it stands for. -/
def readTagDirective (c : Cursor) : Option (Token × Cursor) := do
  let (handle, isClosed, c) ← readHandle (c.skipWhile isSpace)
  if (isClosed || handle = ['!']) && isSpace c.peek then
    let (expansion, c) ← readTagText true (c.skipWhile isSpace)
    if isGap c.peek then some (.tagDirective (String.ofList handle) (String.ofList expansion), c)
    else none
  else none

/-- A directive with the line it stands on, read at its percent sign. -/
def readDirective (c : Cursor) : Option (Token × Cursor) := do
  let (name, c) := (c.skip 1).spanWhile isWord
  if name.isEmpty || !isGap c.peek then none
  else
    let (token, c) ←
      match String.ofList name with
      | "YAML" => readVersion c
      | "TAG" => readTagDirective c
      | _ => none
    let c := c.skipWhile isSpace
    let c := if c.peek = '#' then c.skipWhile fun x => !isBreakOrEnd x else c
    if isBreakOrEnd c.peek then some (token, c.skipBreak) else none

end Fleet.Yaml
