import Fleet.Shell.Reader.Scanner

/-!
# Here-documents

The text of a here-document stands after the line that announces it, up to a line that is its mark.  The mark is a word
in which nothing is expanded; if it is quoted, nothing is expanded in the text either.
-/

namespace Fleet.Shell.Reader

/-- A text before the parts of a word that have been read, the last one first. -/
def add (isQuoted : Bool) (chars : List Char) : List Part → List Part
  | .text q before :: rest =>
    if q = isQuoted then .text q (before ++ chars) :: rest else .text isQuoted chars :: .text q before :: rest
  | rest => .text isQuoted chars :: rest

/-- At the beginning of a line of a here-document its tabs may be left out; the answer says whether the document
ends here. -/
def isAtMark (mark : Mark) : Reading Bool := do
  let x ← get
  let rest := if mark.skipsTabs then x.rest.dropWhile (· == '\t') else x.rest
  let after := rest.drop mark.text.length
  if mark.text.isPrefixOf rest ∧ (after = [] ∨ after.head? = some '\n') then
    set { x with rest := after.drop 1, line := x.line + (if after = [] then 0 else 1) }
    return true
  else
    set { x with rest }
    return false

/-- The lines of a here-document in which nothing is expanded. -/
def plainLines : Nat → Mark → List Char → Reading (List Char)
  | 0, _, _ => fail .tooDeep
  | n + 1, mark, before => do
    if ← isAtMark mark then return before
    let x ← get
    match x.rest.span (· != '\n') with
    | (line, _ :: rest) =>
      set { x with rest, line := x.line + 1 }
      plainLines n mark (before ++ line ++ ['\n'])
    | (line, []) =>
      set { x with rest := [] }
      return before ++ line

def isQuoted (w : Word) : Bool :=
  w.any fun part =>
    match part with
    | .text q _ => q
    | _ => false

/-- The end of a here-document, in which nothing is expanded. -/
def markWord : Nat → List Part → Reading Word
  | 0, _ => fail .tooDeep
  | n + 1, before => do
    join
    let x ← get
    match x.rest with
    | [] => return before.reverse
    | '\\' :: c :: rest =>
      set { x with rest }
      markWord n (add true [c] before)
    | '"' :: rest =>
      let (inner, after) := Position.span (· != '"') rest x.line
      match after.rest with
      | [] => fail .unterminatedQuote
      | _ :: more =>
        set { x with rest := more, line := after.line + inner.count '\n' }
        markWord n (add true inner before)
    | '\'' :: rest =>
      match singleQuoted? rest with
      | some (inner, rest) =>
        set { x with rest, line := x.line + inner.count '\n' }
        markWord n (add true inner before)
      | none => fail .unterminatedQuote
    | c :: rest =>
      if c ∈ [' ', '\t', '\n', ';', '&', '|', '<', '>', '(', ')'] then return before.reverse
      else
        set { x with rest }
        markWord n (add (c == '\x60') [c] before)

end Fleet.Shell.Reader
