import Fleet.Yaml.Token.Property
import Fleet.Yaml.Token.Scalar

/-!
# Cutting a text into tokens

The lexer goes through a text once.  It keeps the indentation of the open block collections, and for each
open bracket the place where a key may have begun: when a colon follows such a place on the same line within
1024 bytes, the key's token, and the beginning of its mapping if it is the first one, are put in there
afterwards.
-/

namespace Fleet.Yaml

/-- A place where a key may have begun. -/
structure PendingKey where
  /-- whether a colon has to follow, because only a key can stand there -/
  required : Bool
  /-- how many tokens come before it -/
  position : Nat
  index : Nat
  line : Nat
  column : Nat

/-- What the lexer has read so far. -/
structure Lexer where
  cursor : Cursor
  /-- the tokens, the last one first -/
  tokens : List Token
  /-- the pending key outside brackets -/
  blockKey : Option PendingKey
  /-- the pending keys inside brackets, the innermost bracket first -/
  flowKeys : List (Option PendingKey)
  /-- the column of the innermost block collection, or -1 -/
  indent : Int
  /-- the columns of the outer ones -/
  outer : List Int
  /-- whether a key may begin here -/
  keyAllowed : Bool

namespace Lexer

def start (text : List Char) : Lexer :=
  ⟨.start text, [], none, [], -1, [], true⟩

def inFlow (l : Lexer) : Bool := !l.flowKeys.isEmpty

/-- The pending key of the innermost bracket, or of none. -/
def pending (l : Lexer) : Option PendingKey :=
  match l.flowKeys with
  | k :: _ => k
  | [] => l.blockKey

def setPending (l : Lexer) (key : Option PendingKey) : Lexer :=
  match l.flowKeys with
  | _ :: r => { l with flowKeys := key :: r }
  | [] => { l with blockKey := key }

def emit (l : Lexer) (t : Token) : Lexer := { l with tokens := t :: l.tokens }

/-- One more token, put in behind the first tokens. -/
def emitAt (l : Lexer) (position : Nat) (t : Token) : Lexer :=
  let later := l.tokens.length - position
  { l with tokens := l.tokens.take later ++ t :: l.tokens.drop later }

/-- One more token for the next characters. -/
def emitSkipping (l : Lexer) (count : Nat) (t : Token) : Lexer :=
  { l.emit t with cursor := l.cursor.skip count }

def allowKey (l : Lexer) (allowed : Bool) : Lexer := { l with keyAllowed := allowed }

/-! ### keys -/

/-- Whether a colon here would come too late for a pending key. -/
def isStale (c : Cursor) (k : PendingKey) : Bool :=
  k.line < c.line || k.index + 1024 < c.index

/-- The pending key, unless it has become stale; a required one must not. -/
def refresh (c : Cursor) : Option PendingKey → Option (Option PendingKey)
  | none => some none
  | some k => if isStale c k then (if k.required then none else some none) else some (some k)

def dropStale (l : Lexer) : Option Lexer := do
  let blockKey ← refresh l.cursor l.blockKey
  let flowKeys ← l.flowKeys.mapM (refresh l.cursor)
  some { l with blockKey, flowKeys }

/-- The lexer without its pending key, which must not be required. -/
def dropKey (l : Lexer) : Option Lexer :=
  match l.pending with
  | some k => if k.required then none else some (l.setPending none)
  | none => some l

/-- Note that a key may begin here, if it may. -/
def noteKey (l : Lexer) : Option Lexer :=
  if l.keyAllowed then do
    let required := !l.inFlow && l.indent = l.cursor.column
    let l ← l.dropKey
    some (l.setPending (some ⟨required, l.tokens.length, l.cursor.index, l.cursor.line, l.cursor.column⟩))
  else some l

/-! ### indentation -/

/-- Close the block collections that are indented more than a column. -/
def unroll (column : Int) : List Int → Lexer → Lexer
  | [], l => if column < l.indent then { l.emit .blockEnd with indent := -1 } else l
  | i :: r, l =>
    if column < l.indent then unroll column r { l.emit .blockEnd with indent := i, outer := r } else l

/-- Close the block collections that are indented more than a column, unless a bracket is open. -/
def unindent (l : Lexer) (column : Int) : Lexer :=
  if l.inFlow then l else unroll column l.outer l

/-- Open a block collection at a column, unless one is open there or a bracket is open; its token is put in
behind the first tokens. -/
def openBlock (l : Lexer) (column position : Nat) (t : Token) : Lexer :=
  if !l.inFlow && l.indent < column then
    { l.emitAt position t with indent := column, outer := l.indent :: l.outer }
  else l

def openBlockHere (l : Lexer) (t : Token) : Lexer :=
  l.openBlock l.cursor.column l.tokens.length t

/-! ### one token -/

/-- Past spaces, comments and line ends.  Tabs count as spaces where no key may begin, and a byte order mark may
begin a line. -/
def skipToToken : Nat → Lexer → Lexer
  | 0, l => l
  | fuel + 1, l =>
    let c := l.cursor
    let c := if c.column = 0 && c.peek = byteOrderMark then c.skip 1 else c
    let c := c.skipWhile fun x => x = ' ' || ((l.inFlow || !l.keyAllowed) && x = '\t')
    let c := if c.peek = '#' then c.skipWhile fun x => !isBreakOrEnd x else c
    if isBreak c.peek then
      skipToToken fuel { l with cursor := c.skipBreak, keyAllowed := l.keyAllowed || !l.inFlow }
    else { l with cursor := c }

def readEnd (l : Lexer) : Option Lexer := do
  let l ← (l.unindent (-1)).dropKey
  some ((l.allowKey false).emit .streamEnd)

def readDirectiveLine (l : Lexer) : Option Lexer := do
  let l ← (l.unindent (-1)).dropKey
  let (t, c) ← readDirective l.cursor
  some { (l.allowKey false).emit t with cursor := c }

def readDocumentMark (l : Lexer) (t : Token) : Option Lexer := do
  let l ← (l.unindent (-1)).dropKey
  some ((l.allowKey false).emitSkipping 3 t)

def readOpening (l : Lexer) (t : Token) : Option Lexer := do
  let l ← l.noteKey
  let l := { l with flowKeys := none :: l.flowKeys }
  some ((l.allowKey true).emitSkipping 1 t)

def readClosing (l : Lexer) (t : Token) : Option Lexer := do
  let l ← l.dropKey
  let l := { l with flowKeys := l.flowKeys.drop 1 }
  some ((l.allowKey false).emitSkipping 1 t)

def readComma (l : Lexer) : Option Lexer := do
  let l ← l.dropKey
  some ((l.allowKey true).emitSkipping 1 .flowEntry)

def readDash (l : Lexer) : Option Lexer := do
  if !l.inFlow && !l.keyAllowed then none
  else
    let l ← (l.openBlockHere .blockSequenceStart).dropKey
    some ((l.allowKey true).emitSkipping 1 .blockEntry)

/-- A question mark that begins a key. -/
def readQuestion (l : Lexer) : Option Lexer := do
  if !l.inFlow && !l.keyAllowed then none
  else
    let l ← (l.openBlockHere .blockMappingStart).dropKey
    some ((l.allowKey (!l.inFlow)).emitSkipping 1 .key)

/-- A colon that begins a value, behind a pending key or not. -/
def readColon (l : Lexer) : Option Lexer :=
  match l.pending with
  | some k =>
    let l := (l.emitAt k.position .key).openBlock k.column k.position .blockMappingStart
    some (((l.setPending none).allowKey false).emitSkipping 1 .value)
  | none =>
    if !l.inFlow && !l.keyAllowed then none
    else
      let l := l.openBlockHere .blockMappingStart
      some ((l.allowKey (!l.inFlow)).emitSkipping 1 .value)

def readNamed (l : Lexer) (t : String → Token) : Option Lexer := do
  let l ← l.noteKey
  let (name, c) ← readName (l.cursor.skip 1)
  some { (l.allowKey false).emit (t name) with cursor := c }

def readTagHere (l : Lexer) : Option Lexer := do
  let l ← l.noteKey
  let (t, c) ← readTag l.inFlow l.cursor
  some { (l.allowKey false).emit (.tag t) with cursor := c }

def readBlockScalar (l : Lexer) (style : ScalarStyle) : Option Lexer := do
  let l ← l.dropKey
  let (s, c) ← readBlock (style = .folded) l.indent (l.cursor.skip 1)
  some { (l.allowKey true).emit (.scalar style (String.ofList s)) with cursor := c }

def readQuotedScalar (l : Lexer) (style : ScalarStyle) : Option Lexer := do
  let l ← l.noteKey
  let (s, c) ← readQuoted l.cursor.peek (l.cursor.skip 1)
  some { (l.allowKey false).emit (.scalar style (String.ofList s)) with cursor := c }

/-- A plain scalar; behind the end of its line a key may begin. -/
def readPlainScalar (l : Lexer) : Option Lexer := do
  let l ← l.noteKey
  let (s, broken, c) ← readPlain l.inFlow (l.indent + 1).toNat l.cursor
  some { (l.allowKey broken).emit (.scalar .plain (String.ofList s)) with cursor := c }

/-- The marks that begin no plain scalar. -/
def isMark (c : Char) : Bool :=
  "-?:,[]\x7b\x7d#&*!|>\x27\x22%@\x60".toList.contains c

/-- Whether a plain scalar begins here.  A dash may begin one unless a space follows it, and outside brackets a
question mark or a colon may unless a gap follows. -/
def atPlain (l : Lexer) : Bool :=
  let x := l.cursor.peek
  let y := l.cursor.peekAt 1
  !(isGap x || isMark x) || (x = '-' && !isSpace y) ||
    (!l.inFlow && (x = '?' || x = ':') && !isGap y)

/-- The next token, and those that it makes known. -/
def next (l : Lexer) : Option Lexer := do
  let l := skipToToken (l.cursor.rest.length + 1) l
  let l ← l.dropStale
  let l := l.unindent l.cursor.column
  let x := l.cursor.peek
  let isApart := isGap (l.cursor.peekAt 1)
  if isEnd x then l.readEnd
  else if l.cursor.column = 0 && x = '%' then l.readDirectiveLine
  else if l.cursor.atDocumentMark then
    l.readDocumentMark (if x = '-' then .documentStart else .documentEnd)
  else if x = '[' then l.readOpening .flowSequenceStart
  else if x = '{' then l.readOpening .flowMappingStart
  else if x = ']' then l.readClosing .flowSequenceEnd
  else if x = '}' then l.readClosing .flowMappingEnd
  else if x = ',' then l.readComma
  else if x = '-' && isApart then l.readDash
  else if x = '?' && (l.inFlow || isApart) then l.readQuestion
  else if x = ':' && (l.inFlow || isApart) then l.readColon
  else if x = '*' then l.readNamed .alias
  else if x = '&' then l.readNamed .anchor
  else if x = '!' then l.readTagHere
  else if x = '|' && !l.inFlow then l.readBlockScalar .literal
  else if x = '>' && !l.inFlow then l.readBlockScalar .folded
  else if x = '\x27' then l.readQuotedScalar .singleQuoted
  else if x = '\x22' then l.readQuotedScalar .doubleQuoted
  else if l.atPlain then l.readPlainScalar
  else none

/-- All tokens, each step reading at least one character until the end is read. -/
def run : Nat → Lexer → Option (List Token)
  | 0, _ => none
  | fuel + 1, l =>
    match l.tokens with
    | .streamEnd :: _ => some l.tokens.reverse
    | _ =>
      match l.next with
      | some l => run fuel l
      | none => none

end Lexer

/-- The tokens of a text, if it can be cut into tokens.  A byte order mark before the text is not part of it. -/
def tokens? (text : String) : Option (List Token) :=
  let cs := text.toList
  let cs := if cs.head? = some byteOrderMark then cs.drop 1 else cs
  if cs.all isAllowed then Lexer.run (cs.length + 2) (.start cs) else none

end Fleet.Yaml
