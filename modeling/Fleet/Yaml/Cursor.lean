import Fleet.Yaml.Char

/-!
# A place in a text

A cursor holds what is left of a text, and where that begins: the index in bytes, the line, and the column in
characters, each counted from zero.
-/

namespace Fleet.Yaml

/-- A place in a text. -/
structure Cursor where
  rest : List Char
  /-- how many bytes come before, in UTF-8 -/
  index : Nat
  line : Nat
  column : Nat
  deriving Inhabited

namespace Cursor

def start (text : List Char) : Cursor := ⟨text, 0, 0, 0⟩

def peekAt (c : Cursor) (n : Nat) : Char := c.rest.getD n '\x00'

def peek (c : Cursor) : Char := c.peekAt 0

def byteCount (s : List Char) : Nat := s.foldl (fun n c => n + c.utf8Size) 0

/-- Past so many characters, none of which ends a line. -/
def skip (c : Cursor) (n : Nat) : Cursor :=
  ⟨c.rest.drop n, c.index + byteCount (c.rest.take n), c.line, c.column + n⟩

/-- Past the characters of a class that has no line ends; and those characters. -/
def spanWhile (c : Cursor) (p : Char → Bool) : List Char × Cursor :=
  let taken := c.rest.takeWhile p
  (taken, c.skip taken.length)

/-- Past the characters of a class that has no line ends. -/
def skipWhile (c : Cursor) (p : Char → Bool) : Cursor := (c.spanWhile p).2

/-- Past the end of a line, if one is next. -/
def skipBreak (c : Cursor) : Cursor :=
  match c.rest with
  | '\r' :: '\n' :: r => ⟨r, c.index + 2, c.line + 1, 0⟩
  | b :: r => if isBreak b then ⟨r, c.index + b.utf8Size, c.line + 1, 0⟩ else c
  | [] => c

/-- The end of a line as text: the Unicode separators stand for themselves, all others for a newline. -/
def breakText (c : Cursor) : List Char :=
  let b := c.peek
  if b.toNat = 0x2028 || b.toNat = 0x2029 then [b] else if isBreak b then ['\n'] else []

/-- Whether three dashes or three dots stand at the beginning of a line, alone or before a gap. -/
def atDocumentMark (c : Cursor) : Bool :=
  c.column = 0 && (c.rest.take 3 = ['-', '-', '-'] || c.rest.take 3 = ['.', '.', '.']) &&
    isGap (c.peekAt 3)

end Cursor

/-! ### gaps inside scalars -/

/-- What was read between two words of a scalar: spaces, or line ends. -/
structure Gap where
  /-- the spaces, if the line has not ended -/
  spaces : List Char
  /-- whether the line has ended -/
  broken : Bool
  /-- the text of the first line end -/
  first : List Char
  /-- the texts of the later line ends -/
  others : List Char

namespace Gap

def none : Gap := ⟨[], false, [], []⟩

/-- A line end that is not part of the text. -/
def escaped : Gap := ⟨[], true, [], []⟩

/-- The text a gap stands for: a single newline becomes a space, and of several the first is lost. -/
def text (g : Gap) : List Char :=
  if g.broken then
    if g.first = ['\n'] then (if g.others = [] then [' '] else g.others) else g.first ++ g.others
  else g.spaces

/-- Read the rest of a gap.  With a column given, a tab before that column on a new line is refused. -/
def read (column : Option Nat) : Nat → Gap → Cursor → Option (Gap × Cursor)
  | 0, g, c => some (g, c)
  | fuel + 1, g, c =>
    if isSpace c.peek then
      if g.broken && c.peek = '\t' && column.any (c.column < ·) then Option.none
      else read column fuel (if g.broken then g else { g with spaces := g.spaces ++ [c.peek] }) (c.skip 1)
    else if isBreak c.peek then
      let g := if g.broken then { g with others := g.others ++ c.breakText }
        else ⟨[], true, c.breakText, []⟩
      read column fuel g c.skipBreak
    else some (g, c)

end Gap

end Fleet.Yaml
