import Fleet.Yaml.Char
import Fleet.Yaml.Node

/-!
# Writing nodes

Nodes are written one entry or item a line, indented by two columns a level; a sequence that is the value of
an entry is not indented further.  An item begins on the line of its dash.  A key is written before its colon
if it is short and on one line, and behind a question mark otherwise.  Empty collections are written in
brackets.
-/

namespace Fleet.Yaml

/-- A text that is being written. -/
structure Pen where
  /-- the characters, the last one first -/
  written : List Char
  column : Nat
  /-- whether the next word needs no space before it -/
  isSpaced : Bool
  /-- whether the line holds nothing but indentation and marks -/
  isFresh : Bool

namespace Pen

def step : Nat := 2

def start : Pen := ⟨[], 0, true, true⟩

def text (p : Pen) : String := String.ofList p.written.reverse

def put (p : Pen) (c : Char) : Pen := { p with written := c :: p.written, column := p.column + 1 }

def puts (p : Pen) (s : List Char) : Pen := s.foldl put p

/-- The end of the line, as the given character. -/
def breakLine (p : Pen) (c : Char) : Pen := { p with written := c :: p.written, column := 0 }

/-- At a column of a fresh line, which is the present one if it is fresh and not too long. -/
def lineAt (p : Pen) (indent : Nat) : Pen :=
  let p :=
    if !p.isFresh || indent < p.column || (p.column = indent && !p.isSpaced) then p.breakLine '\n' else p
  { p.puts (List.replicate (indent - p.column) ' ') with isSpaced := true, isFresh := true }

/-- A mark of the notation; whether it needs a space before it, whether it needs none behind it, and whether
the line stays fresh. -/
def mark (p : Pen) (s : List Char) (needsSpace isSpaced staysFresh : Bool) : Pen :=
  let p := if needsSpace && !p.isSpaced then p.put ' ' else p
  let p := p.puts s
  { p with isSpaced, isFresh := p.isFresh && staysFresh }

def word (p : Pen) (s : List Char) : Pen := p.mark s true false false

/-! ### scalars -/

/-- The digits of a number in a radix of sixteen, padded to a width. -/
def hexDigits (width n : Nat) : List Char :=
  let digits := (Nat.toDigits 16 n).map Char.toUpper
  List.replicate (width - digits.length) '0' ++ digits

/-- How a character is written in double quotes. -/
def escaped (c : Char) : List Char :=
  let n := c.toNat
  let letter := fun (x : Char) => ['\x5c', x]
  if n = 0x00 then letter '0'
  else if n = 0x07 then letter 'a'
  else if n = 0x08 then letter 'b'
  else if n = 0x09 then letter 't'
  else if n = 0x0A then letter 'n'
  else if n = 0x0B then letter 'v'
  else if n = 0x0C then letter 'f'
  else if n = 0x0D then letter 'r'
  else if n = 0x1B then letter 'e'
  else if n = 0x22 then letter '\x22'
  else if n = 0x5C then letter '\x5c'
  else if n = 0x85 then letter 'N'
  else if n = 0x2028 then letter 'L'
  else if n = 0x2029 then letter 'P'
  else if isPrintable c then [c]
  else if n ≤ 0xFF then letter 'x' ++ hexDigits 2 n
  else if n ≤ 0xFFFF then letter 'u' ++ hexDigits 4 n
  else letter 'U' ++ hexDigits 8 n

/-- The characters of a text in single quotes; behind a line end the next line begins at the indentation. -/
def putQuoted (indent : Nat) : List Char → (afterBreak : Bool) → Pen → Pen
  | [], afterBreak, p => if afterBreak then p.lineAt indent else p
  | c :: r, afterBreak, p =>
    if isBreak c then
      putQuoted indent r true { p.breakLine c with isFresh := true }
    else
      let p := if afterBreak && c != ' ' then p.lineAt indent else p
      let p := p.put c
      let p := if c = '\x27' then p.put c else p
      if c = ' ' then putQuoted indent r afterBreak p else putQuoted indent r false { p with isFresh := false }

def putLiteral (indent : Nat) : List Char → (afterBreak : Bool) → Pen → Pen
  | [], _, p => p
  | c :: r, afterBreak, p =>
    if isBreak c then putLiteral indent r true { p.breakLine c with isFresh := true }
    else
      let p := if afterBreak then p.lineAt indent else p
      putLiteral indent r false { p.put c with isFresh := false }

/-- The signs behind the mark of a literal text: the indentation if its first line begins with a space or is
empty, and what becomes of the line ends behind its last line. -/
def literalSigns (s : List Char) : List Char :=
  let indentation := if s.head?.any fun c => c = ' ' || isBreak c then ['2'] else []
  let chomping :=
    match s.reverse with
    | [] => ['-']
    | c :: r => if !isBreak c then ['-'] else if r.head?.all isBreak then ['+'] else []
  indentation ++ chomping

/-- The characters of a tag, with those that have a meaning in tags as escaped bytes. -/
def tagChars (s : List Char) : List Char :=
  s.flatMap fun c =>
    if isWord c || ";/?:@&=+$,.~*'()[]".toList.contains c then [c]
    else (String.utf8EncodeChar c).flatMap fun b => '%' :: hexDigits 2 b.toNat

/-- A tag.  A lone exclamation mark stands between angle brackets. -/
def tag (p : Pen) : Option String → Pen
  | none => p
  | some name =>
    match name.toList with
    | '!' :: c :: r => p.word ('!' :: tagChars (c :: r))
    | s => p.word ("!<".toList ++ tagChars s ++ ['>'])

def scalar (p : Pen) (indent : Nat) (style : ScalarStyle) (text : String) : Pen :=
  let s := text.toList
  match style with
  | .plain => if s.isEmpty then { p with isSpaced := false, isFresh := false } else p.word s
  | .singleQuoted =>
    let p := putQuoted indent s false (p.word ['\x27'])
    { p.put '\x27' with isSpaced := false, isFresh := false }
  | .doubleQuoted => p.word ('\x22' :: s.flatMap escaped ++ ['\x22'])
  | .literal | .folded =>
    let p := (p.word ['|']).puts (literalSigns s)
    putLiteral indent s true { p.breakLine '\n' with isSpaced := true, isFresh := true }

/-! ### keys -/

/-- The longest key, in bytes with its tag, that is written before its colon. -/
def maxKeySize : Nat := 128

/-- Whether a key is written before its colon. -/
def isShortKey : Node → Bool
  | .scalar tag _ text =>
    (tag.elim 0 String.utf8ByteSize) + text.utf8ByteSize ≤ maxKeySize && !text.toList.any isBreak
  | .sequence tag items => items.isEmpty && tag.elim 0 String.utf8ByteSize ≤ maxKeySize
  | .mapping tag entries => entries.isEmpty && tag.elim 0 String.utf8ByteSize ≤ maxKeySize
  | .alias _ => true

/-! ### nodes -/

/-- The indentation inside a collection at an indentation; none is outside of everything. -/
def inside (indent : Option Nat) : Nat :=
  match indent with
  | none => 0
  | some n => n + step

/-- The indentation inside a sequence; one that is the value of an entry on the line of its key stays at the
indentation of the key. -/
def insideSequence (p : Pen) (isValue : Bool) (indent : Option Nat) : Nat :=
  match indent with
  | some n => if isValue && !p.isFresh then n else n + step
  | none => 0

mutual

/-- A node, as a key or a value of an entry or as something else, at an indentation. -/
def node (isPart : Bool) (indent : Option Nat) : Node → Pen → Pen
  | .scalar tag style text, p => (p.tag tag).scalar (indent.getD 0 + step) style text
  | .sequence tag items, p =>
    let p := p.tag tag
    if items.isEmpty then p.word ['[', ']'] else itemLines (p.insideSequence isPart indent) items p
  | .mapping tag entries, p =>
    let p := p.tag tag
    if entries.isEmpty then p.word ['{', '}'] else entryLines (inside indent) entries p
  | .alias _, p => p

def itemLines (indent : Nat) : List Node → Pen → Pen
  | [], p => p
  | item :: rest, p =>
    itemLines indent rest (node false (some indent) item ((p.lineAt indent).mark ['-'] true false true))

def entryLines (indent : Nat) : List (Node × Node) → Pen → Pen
  | [], p => p
  | entry :: rest, p => entryLines indent rest (entryLine indent entry p)

def entryLine (indent : Nat) : Node × Node → Pen → Pen
  | (key, value), p =>
    let p := p.lineAt indent
    if isShortKey key then
      node true (some indent) value ((node true (some indent) key p).mark [':'] false false false)
    else
      let p := node true (some indent) key (p.mark ['?'] true false true)
      node true (some indent) value ((p.lineAt indent).mark [':'] true false true)

end

end Pen

def Node.write (n : Node) : String :=
  ((Pen.node false none n .start).lineAt 0).text

end Fleet.Yaml
