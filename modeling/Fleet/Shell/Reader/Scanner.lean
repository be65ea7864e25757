import Fleet.Shell.Token

/-!
# How far a reader has come

Shell text is read from left to right.  A scanner says how far the reading of a text has come, and a reading is a step
that may find a fault.  Here are the steps that take characters, operators and the ends of aliases.  A backslash before
a newline joins two lines wherever it is not quoted.
-/

namespace Fleet.Shell

/-! ### characters -/

/-- The rest of a text and the number of the line that it begins in. -/
structure Position where
  rest : List Char
  line : Nat

namespace Position

def joined : List Char → Nat → Position
  | '\\' :: '\n' :: rest, line => joined rest (line + 1)
  | rest, line => ⟨rest, line⟩

def afterBlanks (inComment : Bool) : List Char → Nat → Position
  | [], line => ⟨[], line⟩
  | c :: rest, line =>
    if inComment then if c = '\n' then ⟨c :: rest, line⟩ else afterBlanks true rest line
    else if c = ' ' ∨ c = '\t' then afterBlanks false rest line
    else if c = '#' then afterBlanks true rest line
    else if c = '\\' then
      match rest with
      | '\n' :: more => afterBlanks false more (line + 1)
      | _ => ⟨c :: rest, line⟩
    else ⟨c :: rest, line⟩

/-- The characters of a kind that the text begins with, in joined lines, and the position after them. -/
def span (isWanted : Char → Bool) : List Char → Nat → List Char × Position
  | [], line => ([], ⟨[], line⟩)
  | c :: rest, line =>
    if isWanted c then
      let (found, after) := span isWanted rest line
      (c :: found, after)
    else if c = '\\' then
      match rest with
      | '\n' :: more => span isWanted more (line + 1)
      | _ => ([], ⟨c :: rest, line⟩)
    else ([], ⟨c :: rest, line⟩)

end Position

/-- The text up to a closing single quote, and the rest. -/
def singleQuoted? (s : List Char) : Option (List Char × List Char) :=
  match s.span (· != '\'') with
  | (inner, _ :: rest) => some (inner, rest)
  | (_, []) => none

/-- The text up to the closing backquote, without the backslashes that quote for the outer text, and the position
after it. -/
def backquoted? (isQuoted : Bool) : List Char → Nat → Option (List Char × Position)
  | [], _ => none
  | '\\' :: '\n' :: rest, line => backquoted? isQuoted rest (line + 1)
  | '\x60' :: rest, line => some ([], ⟨rest, line⟩)
  | '\\' :: c :: rest, line =>
    (backquoted? isQuoted rest (if c = '\n' then line + 1 else line)).map fun (inner, after) =>
      if c ∈ ['$', '\x60', '\\'] ∨ (isQuoted ∧ c = '"') then (c :: inner, after) else ('\\' :: c :: inner, after)
  | c :: rest, line =>
    (backquoted? isQuoted rest (if c = '\n' then line + 1 else line)).map fun (inner, after) => (c :: inner, after)

/-- The parameter that a single character names. -/
def special? (c : Char) : Option Parameter :=
  match c with
  | '#' => some .count
  | '*' => some .all
  | '@' => some .each
  | '?' => some .status
  | '$' => some .shell
  | '!' => some .background
  | '-' => some .options
  | _ => if c.isDigit then some (.argument (c.toNat - '0'.toNat)) else none

/-- What is done about a parameter, by the sign for it. -/
def fallback? (c : Char) : Option Fallback :=
  match c with
  | '-' => some .substitute
  | '=' => some .assign
  | '?' => some .complain
  | '+' => some .replace
  | _ => none

/-! ### scanners -/

/-- The end of a here-document. -/
structure Mark where
  text : List Char
  /-- tabs before lines are left out -/
  skipsTabs : Bool

/-- A here-document that has been announced. -/
structure Announcement where
  number : Nat
  mark : Mark
  /-- nothing in the text is expanded -/
  isQuoted : Bool

/-- An alias that is being expanded: its name, the length of the text after it, and whether the next word may be
an alias too. -/
structure Expanding where
  name : String
  behind : Nat
  goesOn : Bool

/-- The beginning of a redirection. -/
structure Opening where
  descriptor : Nat
  mode : Mode
  skipsTabs : Bool

/-- How far the reading of a text has come. -/
structure Scanner where
  rest : List Char
  line : Nat
  /-- the last token; one that is held is read again -/
  token : Token
  isHeld : Bool
  /-- the last word -/
  word : Word
  /-- the last redirection -/
  opening : Opening
  /-- the here-documents whose texts are still to come -/
  announced : List Announcement
  /-- the texts that have been found -/
  found : List (Nat × Word)
  /-- the texts that were found by an earlier reading -/
  known : List (Nat × Word)
  /-- how many here-documents have been announced -/
  count : Nat
  /-- how deep in the texts of here-documents this is, and how deep it has been -/
  depth : Nat
  greatestDepth : Nat
  aliases : List (String × String)
  expanding : List Expanding
  /-- output and messages can be redirected together -/
  isExtended : Bool

/-- A reading that may find a fault in a line. -/
abbrev Reading := StateT Scanner (Except (Nat × SyntaxFault))

/-- Which tokens are looked for. -/
structure Expected where
  /-- newlines are passed over -/
  skipsNewlines : Bool
  keywords : Bool
  aliases : Bool

namespace Expected

def plain : Expected := ⟨false, false, false⟩

def command : Expected := ⟨false, true, true⟩

/-- The beginning of a command, perhaps on another line. -/
def anyLine : Expected := ⟨true, true, true⟩

end Expected

namespace Reader

/-! ### steps -/

/-- A fault in the line that is being read. -/
def fail {α : Type} (fault : SyntaxFault) : Reading α := do
  throw ((← get).line, fault)

/-- The last token stands where it must not. -/
def refuse {α : Type} (wanted : Option Token) : Reading α := do
  fail (.unexpected (← get).token wanted)

def moveTo (p : Position) : Reading Unit := modify fun x => { x with rest := p.rest, line := p.line }

def join : Reading Unit := modify fun x =>
  let p := Position.joined x.rest x.line
  { x with rest := p.rest, line := p.line }

/-- The next character, if it is a given one, is passed over. -/
def accept (c : Char) : Reading Bool := do
  join
  let x ← get
  match x.rest with
  | d :: rest =>
    if c = d then
      set { x with rest }
      return true
    else return false
  | [] => return false

def next? : Reading (Option Char) := do
  join
  let x ← get
  match x.rest with
  | c :: rest =>
    set { x with rest }
    return some c
  | [] => return none

def peek? : Reading (Option Char) := do
  join
  return (← get).rest.head?

def hold : Reading Unit := modify fun x => { x with isHeld := true }

def found (token : Token) : Reading Token := do
  modify fun x => { x with token }
  return token

/-- The operator that a text begins with, and the rest.  Only `&` and `|` and `;` can be doubled. -/
def operator : Reading (Option Token) := do
  let x ← get
  match x.rest with
  | '\n' :: rest =>
    set { x with rest, line := x.line + 1 }
    return some .newline
  | [] => return some .ending
  | c :: rest =>
    if c ∈ ['&', '|', ';'] then
      set { x with rest }
      if ← accept c then return some (.operator (String.ofList [c, c]))
      else return some (.operator (String.singleton c))
    else if c ∈ ['(', ')'] then
      set { x with rest }
      return some (.operator (String.singleton c))
    else return none

/-- The redirection that a text begins with, for a descriptor that may have been named. -/
def redirection (descriptor : Option Nat) : Reading Opening := do
  if ← accept '>' then
    let mode ← if ← accept '>' then pure Mode.append
      else if ← accept '|' then pure Mode.overwrite
      else if ← accept '&' then pure Mode.duplicate
      else pure Mode.write
    return ⟨descriptor.getD 1, mode, false⟩
  else
    let _ ← next?
    if ← accept '<' then return ⟨descriptor.getD 0, .document, ← accept '-'⟩
    let mode ← if ← accept '&' then pure Mode.duplicate
      else if ← accept '>' then pure Mode.readWrite
      else pure Mode.read
    return ⟨descriptor.getD 0, mode, false⟩

/-- The end of aliases that have been read through.  The answer says whether the next word may be an alias. -/
def closeAliases : Reading Bool := do
  let x ← get
  if x.expanding.isEmpty then return false
  let left := x.rest.length
  let (ended, going) := x.expanding.partition fun e => left ≤ e.behind
  set { x with expanding := going }
  return ended.any (·.goesOn)

end Reader

end Fleet.Shell
