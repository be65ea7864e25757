import Fleet.Yaml.Cursor

/-!
# Reading scalars

The text of a scalar in each of its styles, read from the cursor behind which it begins.  Line ends inside
plain and quoted scalars fold into spaces; a block scalar keeps them or folds those between lines that
begin with no space.
-/

namespace Fleet.Yaml

/-! ### quoted scalars -/

/-- The character that an escape letter stands for. -/
def simpleEscape? (c : Char) : Option Char :=
  match c with
  | '0' => some '\x00'
  | 'a' => some '\x07'
  | 'b' => some '\x08'
  | 't' => some '\t'
  | '\t' => some '\t'
  | 'n' => some '\n'
  | 'v' => some '\x0B'
  | 'f' => some '\x0C'
  | 'r' => some '\r'
  | 'e' => some '\x1B'
  | ' ' => some ' '
  | '\x22' => some '\x22'
  | '/' => some '/'
  | '\x5c' => some '\x5c'
  | 'N' => some '\u0085'
  | '_' => some '\u00A0'
  | 'L' => some '\u2028'
  | 'P' => some '\u2029'
  | _ => none

/-- How many hexadecimal digits follow an escape letter. -/
def escapeDigits? (c : Char) : Option Nat :=
  match c with
  | 'x' => some 2
  | 'u' => some 4
  | 'U' => some 8
  | _ => none

def hexNumber? (digits : List Char) : Option Nat :=
  digits.foldlM (fun n c => (hexValue? c).map (16 * n + ·)) 0

/-- The character with a code point, if there is one. -/
def charOf? (n : Nat) : Option Char :=
  if n.isValidChar then some (Char.ofNat n) else none

/-- The character that an escape stands for, read behind its backslash. -/
def readEscape (c : Cursor) : Option (Char × Cursor) :=
  match simpleEscape? c.peek with
  | some x => some (x, c.skip 1)
  | none => do
    let count ← escapeDigits? c.peek
    let digits := (c.rest.drop 1).take count
    if digits.length = count then
      let x ← charOf? (← hexNumber? digits)
      some (x, c.skip (1 + count))
    else none

/-- The characters of a quoted scalar up to a gap or the closing quote; and the gap that an escaped line
end begins. -/
def readQuotedWord (quote : Char) : Nat → Cursor → Option (List Char × Gap × Cursor)
  | 0, c => some ([], Gap.none, c)
  | fuel + 1, c =>
    let x := c.peek
    let goOn := fun (x : Char) (c : Cursor) =>
      (readQuotedWord quote fuel c).map fun (w, g, c) => (x :: w, g, c)
    if isGap x then some ([], Gap.none, c)
    else if quote = '\x27' && x = '\x27' && c.peekAt 1 = '\x27' then goOn '\x27' (c.skip 2)
    else if x = quote then some ([], Gap.none, c)
    else if quote = '\x22' && x = '\x5c' then
      if isBreak (c.peekAt 1) then some ([], Gap.escaped, (c.skip 1).skipBreak)
      else
        match readEscape (c.skip 1) with
        | some (y, c) => goOn y c
        | none => none
    else goOn x (c.skip 1)

/-- The words of a quoted scalar up to its closing quote. -/
def readQuotedBody (quote : Char) : Nat → Cursor → Option (List Char × Cursor)
  | 0, _ => none
  | fuel + 1, c => do
    if c.atDocumentMark || isEnd c.peek then none
    else
      let (word, gap, c) ← readQuotedWord quote c.rest.length c
      if c.peek = quote && !gap.broken then some (word, c.skip 1)
      else
        let (gap, c) ← gap.read none (c.rest.length + 1) c
        let (rest, c) ← readQuotedBody quote fuel c
        some (word ++ gap.text ++ rest, c)

/-- The text of a quoted scalar, read behind its opening quote. -/
def readQuoted (quote : Char) (c : Cursor) : Option (List Char × Cursor) :=
  readQuotedBody quote (c.rest.length + 1) c

/-! ### plain scalars -/

/-- The characters of a plain scalar up to a gap or to where it ends. -/
def readPlainWord (inFlow : Bool) : Nat → Cursor → Option (List Char × Cursor)
  | 0, c => some ([], c)
  | fuel + 1, c =>
    let x := c.peek
    let y := c.peekAt 1
    if isGap x then some ([], c)
    else if inFlow && x = ':' && (isFlowMark y || y = '?') then none
    else if (x = ':' && isGap y) || (inFlow && isFlowMark x) then some ([], c)
    else (readPlainWord inFlow fuel (c.skip 1)).map fun (w, c) => (x :: w, c)

/-- The words of a plain scalar, read behind a gap; and whether a line ended behind the last. -/
def readPlainBody (inFlow : Bool) (indent : Nat) : Nat → Gap → Cursor → Option (List Char × Bool × Cursor)
  | 0, gap, c => some ([], gap.broken, c)
  | fuel + 1, gap, c => do
    if c.atDocumentMark || c.peek = '#' then some ([], gap.broken, c)
    else
      let (word, c) ← readPlainWord inFlow c.rest.length c
      let before := if word.isEmpty then [] else gap.text
      let gap := if word.isEmpty then gap else Gap.none
      if isSpace c.peek || isBreak c.peek then
        let (gap, c) ← gap.read (some indent) (c.rest.length + 1) c
        if !inFlow && c.column < indent then some (before ++ word, gap.broken, c)
        else
          let (rest, broken, c) ← readPlainBody inFlow indent fuel gap c
          some (before ++ word ++ rest, broken, c)
      else some (before ++ word, gap.broken, c)

/-- The text of a plain scalar; and whether a line ended behind it. -/
def readPlain (inFlow : Bool) (indent : Nat) (c : Cursor) : Option (List Char × Bool × Cursor) :=
  readPlainBody inFlow indent (c.rest.length + 1) Gap.none c

/-! ### block scalars -/

/-- What becomes of the line ends behind the last line. -/
inductive Chomping where
  | strip
  | clip
  | keep
  deriving DecidableEq

/-- The chomping that a sign stands for. -/
def chomping? (c : Char) : Option Chomping :=
  if c = '+' then some .keep else if c = '-' then some .strip else none

/-- The signs behind the mark of a block scalar: chomping and indentation, in either order. -/
def readBlockSigns (c : Cursor) : Option (Chomping × Option Nat × Cursor) :=
  let digit? := fun (c : Cursor) =>
    if c.peek.isDigit then some (c.peek.toNat - '0'.toNat) else none
  match chomping? c.peek with
  | some ch =>
    let c := c.skip 1
    match digit? c with
    | some 0 => none
    | some n => some (ch, some n, c.skip 1)
    | none => some (ch, none, c)
  | none =>
    match digit? c with
    | some 0 => none
    | some n =>
      let c := c.skip 1
      match chomping? c.peek with
      | some ch => some (ch, some n, c.skip 1)
      | none => some (.clip, some n, c)
    | none => some (.clip, none, c)

/-- Read blank lines and the indentation of the next line.  Without a known indentation every space counts
as indentation, and the deepest is found. -/
def readBlockBreaks (indent : Option Nat) : Nat → Nat → Cursor → Option (List Char × Nat × Cursor)
  | 0, deepest, c => some ([], deepest, c)
  | fuel + 1, deepest, c =>
    let within := fun (c : Cursor) => indent.all (c.column < ·)
    if within c && c.peek = ' ' then readBlockBreaks indent fuel deepest (c.skip 1)
    else
      let deepest := max deepest c.column
      if within c && c.peek = '\t' then none
      else if isBreak c.peek then
        (readBlockBreaks indent fuel deepest c.skipBreak).map fun (t, d, d') => (c.breakText ++ t, d, d')
      else some ([], deepest, c)

/-- The lines of a block scalar, each read at the indentation.  Between two lines stand the line end of the
first and the blank lines; the text returned is followed by the line end and the blank lines behind the last
line. -/
def readBlockLines (isFolded : Bool) (indent : Nat) :
    Nat → (wasSpaced : Bool) → (ending blanks : List Char) → Cursor →
      Option (List Char × List Char × List Char × Cursor)
  | 0, _, _, _, _ => none
  | fuel + 1, wasSpaced, ending, blanks, c => do
    if c.column = indent && !isEnd c.peek then
      let isSpaced := isSpace c.peek
      let joint :=
        if isFolded && ending.head? = some '\n' && !wasSpaced && !isSpaced then
          (if blanks = [] then [' '] else []) ++ blanks
        else ending ++ blanks
      let (line, c) := c.spanWhile fun x => !isBreakOrEnd x
      let ending := c.breakText
      let c := c.skipBreak
      let (blanks, _, c) ← readBlockBreaks (some indent) (c.rest.length + 1) 0 c
      let (text, ending, blanks, c) ← readBlockLines isFolded indent fuel isSpaced ending blanks c
      some (joint ++ line ++ text, ending, blanks, c)
    else some ([], ending, blanks, c)

/-- The text of a block scalar, read behind its mark, below a given indentation. -/
def readBlock (isFolded : Bool) (parent : Int) (c : Cursor) : Option (List Char × Cursor) := do
  let (chomping, increment, c) ← readBlockSigns c
  let c := c.skipWhile isSpace
  let c := if c.peek = '#' then c.skipWhile fun x => !isBreakOrEnd x else c
  if !isBreakOrEnd c.peek then none
  else
    let c := c.skipBreak
    let given := increment.map fun n => (max parent 0).toNat + n
    let (blanks, deepest, c) ← readBlockBreaks given (c.rest.length + 1) 0 c
    let indent := given.getD (max deepest (max (parent + 1).toNat 1))
    let (text, ending, blanks, c) ← readBlockLines isFolded indent (c.rest.length + 1) false [] blanks c
    let tail :=
      match chomping with
      | .strip => []
      | .clip => ending
      | .keep => ending ++ blanks
    some (text ++ tail, c)

end Fleet.Yaml
