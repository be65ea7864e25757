import Fleet.Yaml.Node
import Fleet.Yaml.Plain

/-!
# How texts are written

A text is written plainly if it then still reads as a text and nothing in it would be taken for notation, and
in single quotes otherwise.  A text with a newline is written literally.  Where a style cannot hold a text,
because of characters that may not be written as themselves or of spaces beside line ends, double quotes do.
-/

namespace Fleet.Yaml

/-! ### what is in a text -/

/-- The characters that begin no plain scalar, whatever follows. -/
def opensNotation (c : Char) : Bool :=
  "#,[]\x7b\x7d&*!|>\x27\x22%@\x60".toList.contains c

/-- Whether two adjacent characters have a property, the end of the text counting as a character. -/
def anyAdjacent (p : Char → Char → Bool) : List Char → Bool
  | [] => false
  | [c] => p c '\x00'
  | c :: d :: r => p c d || anyAdjacent p (d :: r)

/-- Whether a character and the one behind it would be taken for notation inside a plain scalar. -/
def isNotation (c d : Char) : Bool :=
  (c = ':' && isGap d) || (isGap c && d = '#')

/-- Whether a text written plainly would be taken for notation. -/
def hasNotation (s : List Char) : Bool :=
  s.take 3 = ['-', '-', '-'] || s.take 3 = ['.', '.', '.'] || s.head?.any opensNotation ||
    ((s.head? = some '?' || s.head? = some '-') && isGap (s.getD 1 '\x00')) || anyAdjacent isNotation s

/-- Whether a text has a space or a line end at its beginning or its end. -/
def hasLooseEnds (s : List Char) : Bool :=
  let isLoose := fun c => c = ' ' || isBreak c
  s.head?.any isLoose || s.getLast?.any isLoose

/-- Whether a text has a space right before the end of a line. -/
def hasSpaceBreak (s : List Char) : Bool :=
  anyAdjacent (fun c d => c = ' ' && isBreak d) s

/-- Whether a text has a space right behind the end of a line. -/
def hasBreakSpace (s : List Char) : Bool :=
  anyAdjacent (fun c d => isBreak c && d = ' ') s

/-- Whether a text must be written with escapes. -/
def needsEscapes (s : List Char) : Bool :=
  hasSpaceBreak s || !s.all isPrintable

/-! ### the style of a text -/

/-- Whether a text can be written plainly. -/
def fitsPlain (s : List Char) : Bool :=
  !(needsEscapes s || hasLooseEnds s || s.any isBreak || hasNotation s)

/-- Whether a text can be written in single quotes. -/
def fitsSingleQuoted (s : List Char) : Bool :=
  !(needsEscapes s || hasBreakSpace s)

/-- Whether a text can be written literally. -/
def fitsLiteral (s : List Char) : Bool :=
  !(needsEscapes s || s.getLast? = some ' ')

/-- Whether a text would read as a text without quotes. -/
def readsAsText (s : String) : Bool :=
  match plainValue? s with
  | some (.text _) => !isZeroPadded s.toList
  | _ => false

def ScalarStyle.ofText (s : String) : ScalarStyle :=
  let cs := s.toList
  let quoted := if fitsSingleQuoted cs then ScalarStyle.singleQuoted else .doubleQuoted
  if cs.contains '\n' then (if fitsLiteral cs then .literal else .doubleQuoted)
  else if readsAsText s && fitsPlain cs then .plain
  else quoted

/-! ### the nodes of values -/

namespace Value

/-- The tag of a name: the name behind an exclamation mark, unless it has one. -/
def tagText (name : String) : String := if name.startsWith "!" then name else "!" ++ name

mutual

/-- The node that a value is written as, with the tag that is around it. -/
def toNodeWith (tag : Option String) : Value → Node
  | .null => .scalar tag .plain "null"
  | .bool b => .scalar tag .plain (if b then "true" else "false")
  | .number n => .scalar tag .plain n.text
  | .text s => .scalar tag (.ofText s) s
  | .sequence items => .sequence tag (itemNodes items)
  | .mapping entries => .mapping tag (entryNodes entries)
  | .tagged name content => toNodeWith (some (tagText name)) content

def itemNodes : List Value → List Node
  | [] => []
  | v :: vs => toNodeWith none v :: itemNodes vs

/-- The nodes of the entries of a mapping. -/
def entryNodes : List (Value × Value) → List (Node × Node)
  | [] => []
  | e :: es => entryNode e :: entryNodes es

def entryNode : Value × Value → Node × Node
  | (k, v) => (toNodeWith none k, toNodeWith none v)

end

/-- Whether a key can begin a mapping that has no other entry: a mapping of one entry and a value with a tag
would hide the beginning of the mapping that they are in. -/
def beginsMapping : Value → Bool
  | .mapping [_] | .tagged .. => false
  | _ => true

/-- Whether entries do not begin with a key that hides their beginning. -/
def headBegins : List (Value × Value) → Bool
  | [(k, _)] => beginsMapping k
  | _ => true

mutual

/-- Whether a value can be written, as what a tag is for or as something else. -/
def isWritableIn (isTagged : Bool) : Value → Bool
  | .sequence items => allWritable items
  | .mapping entries => (isTagged || headBegins entries) && entriesWritable entries
  | .tagged _ content => isWritableIn true content
  | _ => true

/-- Whether all items of a sequence can be written. -/
def allWritable : List Value → Bool
  | [] => true
  | v :: vs => isWritableIn false v && allWritable vs

/-- Whether all entries of a mapping can be written. -/
def entriesWritable : List (Value × Value) → Bool
  | [] => true
  | e :: es => entryWritable e && entriesWritable es

def entryWritable : Value × Value → Bool
  | (k, v) => isWritableIn false k && isWritableIn false v

end

def isWritable (v : Value) : Bool := v.isWritableIn false

def toNode (v : Value) : Node := v.toNodeWith none

end Value

end Fleet.Yaml
