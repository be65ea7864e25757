import Fleet.Shell.Pattern

/-!
# Regular expressions

Regular expressions in the two notations of POSIX.  Of the parts of a text that an expression stands for, the first
one counts, and of those that begin at one place the longest.
-/

namespace Fleet.Shell

/-- A regular expression. -/
inductive Regex where
  | empty
  | char (c : Char)
  | any
  | set (isNegated : Bool) (members : List Member)
  /-- the beginning and the end of the text -/
  | textStart
  | textEnd
  /-- the edge of a word, at its beginning, at its end or at either -/
  | edge (atStart atEnd : Bool)
  | noEdge
  | then (first second : Regex)
  | either (first second : Regex)
  | repeated (least : Nat) (most : Option Nat) (body : Regex)
  | group (number : Nat) (body : Regex)
  /-- what a group stands for, once more -/
  | again (number : Nat)
  deriving Inhabited

namespace Regex

/-! ### reading -/

/-- The notation of an expression. -/
structure Dialect where
  isExtended : Bool
  /-- a repetition of nothing is a fault -/
  isStrict : Bool

/-- What is wrong with an expression. -/
inductive Fault where
  | openGroup
  | closedGroup
  | openSet
  /-- nothing follows the bracket that opens a set -/
  | lastBracket
  | unknownKind
  | badRange
  | longElement
  | openRepetition
  | badRepetition
  | nothingRepeated
  | lastBackslash
  | unknownGroup
  deriving DecidableEq

def Fault.message : Fault → String
  | .openGroup => "Unmatched ( or \\("
  | .closedGroup => "Unmatched ) or \\)"
  | .openSet => "Unmatched [, [^, [:, [., or [="
  | .lastBracket => "Invalid regular expression"
  | .unknownKind => "Invalid character class name"
  | .badRange => "Invalid range end"
  | .longElement => "Invalid collation character"
  | .openRepetition => "Unmatched \\\x7b"
  | .badRepetition => "Invalid content of \\\x7b\\\x7d"
  | .nothingRepeated => "Invalid preceding regular expression"
  | .lastBackslash => "Trailing backslash"
  | .unknownGroup => "Invalid back reference"

/-- A part of the text of an expression. -/
inductive Mark where
  | plain (c : Char)
  | any
  | set (isNegated : Bool) (members : List Member)
  | opening
  | closing
  | bar
  | star
  | plus
  | question
  | brace (least : Nat) (most : Option Nat)
  | caret
  | dollar
  | special (r : Regex)

def wordMembers : List Member := [.kind "alnum", .range '_' '_']

/-- The numbers between braces, and the text after them. -/
def braces (isExtended : Bool) (s : List Char) : Except Fault (Nat × Option Nat × List Char) := do
  let number := fun (s : List Char) => (String.ofList s).toNat?
  let (first, s) := s.span Char.isDigit
  let (last, s) : Option (List Char) × List Char := match s with
    | ',' :: rest => (some (rest.takeWhile Char.isDigit), rest.dropWhile Char.isDigit)
    | s => (none, s)
  let rest ← match isExtended, s with
    | true, '\x7d' :: rest | false, '\\' :: '\x7d' :: rest => pure rest
    | _, [] => throw .openRepetition
    | _, _ => throw .badRepetition
  let least := (number first).getD 0
  match last with
  | none => if first = [] then throw .badRepetition else return (least, some least, rest)
  | some digits =>
    match number digits with
    | some most => if most < least then throw .badRepetition else return (least, some most, rest)
    | none => return (least, none, rest)

/-- The kinds of characters that have names. -/
def kinds : List String :=
  ["alnum", "alpha", "blank", "cntrl", "digit", "graph", "lower", "print", "punct", "space", "upper", "xdigit"]

/-- The text up to a sign and a bracket, and what follows them. -/
def named (sign : Char) : List Char → Option (List Char × List Char)
  | [] => none
  | c :: ']' :: rest =>
    if c = sign then some ([], rest) else (named sign (']' :: rest)).map fun (name, rest) => (c :: name, rest)
  | c :: rest => (named sign rest).map fun (name, rest) => (c :: name, rest)

/-- A member of a set, or the character that a range may begin with, and the text after it. -/
def element (s : List Char) : Except Fault (Member × Option Char × List Char) :=
  match s with
  | [] => throw .openSet
  | '[' :: ':' :: rest =>
    match named ':' rest with
    | none => throw .openSet
    | some (name, rest) =>
      let name := String.ofList name
      if name ∈ kinds then return (.kind name, none, rest) else throw .unknownKind
  | '[' :: c :: rest =>
    if c = '.' ∨ c = '=' then
      match named c rest with
      | none => throw .openSet
      | some ([d], rest) => return (.range d d, some d, rest)
      | some _ => throw .longElement
    else return (.range '[' '[', some '[', c :: rest)
  | c :: rest => return (.range c c, some c, rest)

/-- The members of a set, and the text after the bracket that closes it. -/
def members : Nat → Bool → List Char → Except Fault (List Member × List Char)
  | 0, _, _ => throw .openSet
  | _ + 1, false, ']' :: rest => return ([], rest)
  | n + 1, _, s => do
    let (member, start, rest) ← element s
    match start, rest with
    | some first, '-' :: next :: more =>
      if next = ']' then
        let (others, rest) ← members n false rest
        return (member :: others, rest)
      else
        let (_, stop, rest) ← element (next :: more)
        match stop with
        | none => throw .badRange
        | some last =>
          if last < first then throw .badRange
          if rest.head? = some '-' ∧ rest.tail.head? ≠ some ']' then throw .badRange
          let (others, rest) ← members n false rest
          return (.range first last :: others, rest)
    | _, rest =>
      let (others, rest) ← members n false rest
      return (member :: others, rest)

/-- Whether an expression has the name of a kind of characters without the brackets of a set. -/
def isBareKind (text : List Char) : Bool :=
  match text with
  | '[' :: ':' :: rest =>
    let name := rest.takeWhile (· ≠ ']')
    !name.contains '[' && name.getLast? == some ':' && (rest.drop name.length).head? == some ']'
  | _ => false

/-- The mark that a character after a backslash is. -/
def escaped (isExtended : Bool) (c : Char) : Mark :=
  if c.isDigit ∧ c ≠ '0' then .special (.again (c.toNat - '0'.toNat))
  else
    match c with
    | '<' => .special (.edge true false)
    | '>' => .special (.edge false true)
    | 'b' => .special (.edge true true)
    | 'B' => .special .noEdge
    | 'w' => .set false wordMembers
    | 'W' => .set true wordMembers
    | 's' => .set false [.kind "space"]
    | 'S' => .set true [.kind "space"]
    | '\x60' => .special .textStart
    | '\'' => .special .textEnd
    | c =>
      if isExtended then .plain c
      else
        match c with
        | '(' => .opening
        | ')' => .closing
        | '|' => .bar
        | '+' => .plus
        | '?' => .question
        | c => .plain c

/-- The marks of the text of an expression. -/
def marks (d : Dialect) : Nat → List Char → Except Fault (List Mark)
  | 0, _ | _, [] => return []
  | n + 1, c :: rest => do
    let more := fun (mark : Mark) (rest : List Char) => do return mark :: (← marks d n rest)
    match c with
    | '\\' =>
      match rest with
      | [] => throw .lastBackslash
      | c :: rest =>
        if c = '\x7b' ∧ !d.isExtended then
          let (least, most, rest) ← braces d.isExtended rest
          more (.brace least most) rest
        else more (escaped d.isExtended c) rest
    | '.' => more .any rest
    | '*' => more .star rest
    | '^' => more .caret rest
    | '$' => more .dollar rest
    | '[' =>
      let (isNegated, inner) := match rest with
        | '^' :: rest => (true, rest)
        | rest => (false, rest)
      if inner = [] then throw .lastBracket
      let (found, rest) ← members (inner.length + 1) true inner
      more (.set isNegated found) rest
    | c =>
      if d.isExtended then
        match c with
        | '(' => more .opening rest
        | ')' => more .closing rest
        | '|' => more .bar rest
        | '+' => more .plus rest
        | '?' => more .question rest
        | '\x7b' =>
          match braces d.isExtended rest with
          | .ok (least, most, rest) => more (.brace least most) rest
          | .error fault => if d.isStrict then throw fault else more (.plain c) rest
        | c => more (.plain c) rest
      else more (.plain c) rest

/-- How far the reading of marks has come: the marks that are left, and how many groups have been opened. -/
structure Progress where
  marks : List Mark
  groups : Nat
  depth : Nat
  /-- the repetitions of nothing that have been passed over -/
  ignored : List String

abbrev Reading := StateT Progress (Except Fault)

def pass : Reading Unit := modify fun x => { x with marks := x.marks.tail }

/-- An expression with the repetitions that follow it. -/
def repetitions (d : Dialect) (body : Regex) : Nat → Reading Regex
  | 0 => return body
  | n + 1 => do
    let again := fun (least : Nat) (most : Option Nat) => do
      pass
      if d.isStrict ∧ !d.isExtended then
        match (← get).marks with
        | .star :: _ | .brace .. :: _ => throw .nothingRepeated
        | _ => pure ()
      repetitions d (.repeated least most body) n
    match (← get).marks with
    | .star :: _ => again 0 none
    | .plus :: _ => again 1 none
    | .question :: _ => again 0 (some 1)
    | .brace least most :: _ => again least most
    | _ => return body

mutual

def alternatives (d : Dialect) : Nat → Reading Regex
  | 0 => return .empty
  | n + 1 => do
    let first ← branch d n true
    match (← get).marks with
    | .bar :: _ => do
      pass
      return .either first (← alternatives d n)
    | _ => return first

def branch (d : Dialect) : Nat → Bool → Reading Regex
  | 0, _ => return .empty
  | n + 1, isFirst => do
    let x ← get
    let goOn := fun (r : Regex) => do
      let r ← repetitions d r n
      return .then r (← branch d n false)
    let plain := fun (c : Char) => do
      pass
      goOn (.char c)
    let repetition := fun (sign : String) (c : Option Char) => do
      match d.isExtended, c with
      | false, some c => plain c
      | _, _ =>
        if d.isStrict ∨ !d.isExtended then throw .nothingRepeated
        pass
        modify fun y => { y with ignored := y.ignored ++ [sign] }
        branch d n isFirst
    match x.marks with
    | [] | .bar :: _ => return .empty
    | .closing :: _ =>
      if 0 < x.depth then return .empty
      else if d.isExtended ∧ !d.isStrict then plain ')'
      else throw .closedGroup
    | .opening :: _ => do
      pass
      let number := x.groups + 1
      modify fun y => { y with groups := number, depth := y.depth + 1 }
      let body ← alternatives d n
      match (← get).marks with
      | .closing :: _ => do
        pass
        modify fun y => { y with depth := y.depth - 1 }
        goOn (.group number body)
      | _ => throw .openGroup
    | .caret :: rest =>
      if isFirst ∨ d.isExtended then do
        pass
        match d.isExtended, rest with
        | false, .star :: _ => do
          pass
          return .then .textStart (← (do
            let r ← repetitions d (.char '*') n
            return .then r (← branch d n false)))
        | _, _ => return .then .textStart (← branch d n (!d.isExtended && isFirst))
      else plain '^'
    | .dollar :: rest =>
      let isLast := match rest with
        | [] | .bar :: _ | .closing :: _ => true
        | _ => d.isExtended
      if isLast then do
        pass
        return .then .textEnd (← branch d n false)
      else plain '$'
    | .star :: _ => repetition "*" (some '*')
    | .plus :: _ => repetition "+" (some '+')
    | .question :: _ => repetition "?" (some '?')
    | .brace .. :: _ => repetition "\x7b...\x7d" none
    | .plain c :: _ => plain c
    | .any :: _ => do
      pass
      goOn .any
    | .set isNegated members :: _ => do
      pass
      goOn (.set isNegated members)
    | .special (.again number) :: _ => do
      if x.groups < number then throw .unknownGroup
      pass
      goOn (.again number)
    | .special r :: _ => do
      pass
      goOn r

end

/-- An expression as it is read: how many groups it has, and which repetitions of nothing have been passed over. -/
structure Parsed where
  expression : Regex
  groups : Nat
  ignored : List String

def parse (d : Dialect) (text : List Char) : Except Fault Parsed := do
  let found ← marks d (text.length + 1) text
  let (r, x) ← (alternatives d (4 * found.length + 4)).run ⟨found, 0, 0, []⟩
  return ⟨r, x.groups, x.ignored⟩

/-! ### matching -/

/-- A place in a text up to which an expression stands for it, and what its groups stand for, the last first. -/
structure Hit where
  position : Nat
  groups : List (Nat × Nat × Nat)
  deriving DecidableEq, Inhabited

/-- The text that is searched. -/
structure Field where
  text : Array Char
  /-- letters are as good in either case -/
  folds : Bool

namespace Field

/-- Whether a character of a word is at a place. -/
def isWord (x : Field) (i : Nat) : Bool := x.text[i]?.any fun c => c.isAlphanum || c == '_'

def isWordBefore (x : Field) (i : Nat) : Bool := 0 < i && x.isWord (i - 1)

/-- Whether two characters are as good as each other. -/
def same (x : Field) (a b : Char) : Bool := a == b || (x.folds && a.toLower == b.toLower)

/-- Whether a character is in a set. -/
def isIn (x : Field) (members : List Member) (c : Char) : Bool :=
  members.any (Pattern.holds c) ||
    (x.folds && (members.any (Pattern.holds c.toLower) || members.any (Pattern.holds c.toUpper)))

def one (x : Field) (h : Hit) (fits : Char → Bool) : List Hit :=
  match x.text[h.position]? with
  | some c => if fits c then [{ h with position := h.position + 1 }] else []
  | none => []

/-- The places that repeated steps lead to, those of more steps first. -/
def steps (next : Hit → List Hit) : Nat → Nat → Option Nat → List Hit → List Hit
  | 0, _, _, reached => reached
  | n + 1, least, most, reached =>
    if most = some 0 then reached
    else
      let found := ((reached.flatMap fun h =>
        (next h).filter fun g => 0 < least || h.position < g.position)).eraseDups
      let further := if found.isEmpty then [] else steps next n (least - 1) (most.map (· - 1)) found
      if least = 0 then (further ++ reached).eraseDups else further

def hits (x : Field) : Regex → Hit → List Hit
  | .empty, h => [h]
  | .char c, h => x.one h (x.same c)
  | .any, h => x.one h fun _ => true
  | .set isNegated members, h => x.one h fun c => x.isIn members c != isNegated
  | .textStart, h => if h.position = 0 then [h] else []
  | .textEnd, h => if h.position = x.text.size then [h] else []
  | .edge atStart atEnd, h =>
    let before := x.isWordBefore h.position
    let after := x.isWord h.position
    if (atStart && !before && after) || (atEnd && before && !after) then [h] else []
  | .noEdge, h => if x.isWordBefore h.position == x.isWord h.position then [h] else []
  | .then first second, h => ((x.hits first h).flatMap (x.hits second)).eraseDups
  | .either first second, h => (x.hits first h ++ x.hits second h).eraseDups
  | .repeated least most body, h =>
    steps (x.hits body) (least + (x.text.size - h.position) + 1) least most [h]
  | .group number body, h =>
    (x.hits body h).map fun g => { g with groups := (number, h.position, g.position) :: g.groups.filter (·.1 ≠ number) }
  | .again number, h =>
    match h.groups.lookup number with
    | none => []
    | some (start, stop) =>
      let part := x.text.toList.drop start |>.take (stop - start)
      let here := x.text.toList.drop h.position |>.take (stop - start)
      if part.length = here.length ∧ (part.zip here).all fun (a, b) => x.same a b then
        [{ h with position := h.position + (stop - start) }]
      else []

/-- The longest of some hits, the first of those that are equally long. -/
def longest (found : List Hit) : Option Hit :=
  found.foldl (fun best h =>
    match best with
    | some b => if b.position < h.position then some h else some b
    | none => some h) none

/-- The first part of a text from a place on that an expression stands for: its beginning and its hit. -/
def search (x : Field) (r : Regex) : Nat → Nat → Option (Nat × Hit)
  | 0, _ => none
  | n + 1, start =>
    if x.text.size < start then none
    else
      match longest (x.hits r ⟨start, []⟩) with
      | some h => some (start, h)
      | none => search x r n (start + 1)

/-- The first part of a text from a place on that an expression stands for. -/
def find (x : Field) (r : Regex) (start : Nat) : Option (Nat × Hit) := x.search r (x.text.size + 1 - start) start

end Field

/-- Whether an expression stands for a part of a text. -/
def isIn (r : Regex) (folds : Bool) (text : List Char) : Bool := (Field.find ⟨text.toArray, folds⟩ r 0).isSome

end Regex

end Fleet.Shell
