/-!
# Patterns

Patterns of file names and of selections: an asterisk stands for any text, a question mark for one character,
and brackets for one of the characters in them.  Quoted characters stand for themselves, and so does a character
after a backslash.
-/

namespace Fleet.Shell

/-- A character of a text that is read as a pattern, and whether it is quoted. -/
abbrev Sign := Char × Bool

namespace Sign

/-- Signs without backslashes that quote: what follows them is quoted. -/
def unescaped : List Sign → List Sign
  | ('\\', false) :: (c, _) :: rest => (c, true) :: unescaped rest
  | ('\\', false) :: [] => [('\\', true)]
  | sign :: rest => sign :: unescaped rest
  | [] => []

def text (signs : List Sign) : String := String.ofList (signs.map (·.1))

end Sign

/-- A part of the set between brackets. -/
inductive Member where
  | range (first last : Char)
  | kind (name : String)
  deriving DecidableEq, Inhabited

/-- A part of a pattern. -/
inductive Element where
  | char (c : Char)
  /-- any one character -/
  | one
  /-- any text -/
  | many
  /-- one character of a set, or one that is not in it -/
  | set (isNegated : Bool) (members : List Member)
  deriving DecidableEq, Inhabited

abbrev Pattern := List Element

namespace Pattern

/-! ### sets -/

/-- The kinds of characters by their names. -/
def kinds : List (String × (Char → Bool)) :=
  [("alnum", Char.isAlphanum), ("alpha", Char.isAlpha), ("blank", fun c => c == ' ' || c == '\t'),
    ("cntrl", fun c => c < ' ' || c == '\x7f'), ("digit", Char.isDigit), ("graph", fun c => ' ' < c && c < '\x7f'),
    ("lower", Char.isLower), ("print", fun c => ' ' ≤ c && c < '\x7f'),
    ("punct", fun c => ' ' < c && c < '\x7f' && !c.isAlphanum),
    ("space", fun c => c == ' ' || ('\t' ≤ c && c ≤ '\r')), ("upper", Char.isUpper),
    ("xdigit", fun c => c.isDigit || ('a' ≤ c && c ≤ 'f') || ('A' ≤ c && c ≤ 'F'))]

/-- Whether a member of a set is a character. -/
def holds (c : Char) : Member → Bool
  | .range first last => first ≤ c && c ≤ last
  | .kind name => ((kinds.lookup name).map (· c)).getD false

/-- The name of a kind of characters that the signs after an opening bracket begin with. -/
def kind? (signs : List Sign) : Option (String × List Sign) :=
  (kinds.map (·.1)).findSome? fun name =>
    let marks : List Sign := (":" ++ name ++ ":]").toList.map fun c => (c, false)
    if marks.isPrefixOf signs then some (name, signs.drop marks.length) else none

/-- The members of a set up to its closing bracket, and the signs after it.  A bracket at the first place is a
member. -/
def members? : Nat → List Sign → Option (List Member × List Sign)
  | 0, _ => none
  | n + 1, signs =>
    let goOn := fun (member : Member) (rest : List Sign) =>
      match rest with
      | (']', false) :: rest => some ([member], rest)
      | rest => (members? n rest).map fun (more, rest) => (member :: more, rest)
    match signs with
    | [] => none
    | (c, isQuoted) :: rest =>
      match if c = '[' ∧ !isQuoted then kind? rest else none with
      | some (name, rest) => goOn (.kind name) rest
      | none =>
        match rest with
        | ('-', false) :: last :: more =>
          if last = (']', false) then goOn (.range c c) rest else goOn (.range c last.1) more
        | rest => goOn (.range c c) rest

/-- The set that the signs after an opening bracket begin with. -/
def set? (signs : List Sign) : Option (Element × List Sign) :=
  match signs with
  | ('!', false) :: rest => (members? rest.length rest).map fun (found, rest) => (.set true found, rest)
  | signs => (members? signs.length signs).map fun (found, rest) => (.set false found, rest)

/-! ### patterns -/

/-- The pattern that signs without escapes stand for. -/
def ofSigns : Nat → List Sign → Pattern
  | 0, _ | _, [] => []
  | n + 1, sign :: rest =>
    match sign with
    | ('*', false) => .many :: ofSigns n rest
    | ('?', false) => .one :: ofSigns n rest
    | ('[', false) =>
      match set? rest with
      | some (element, rest) => element :: ofSigns n rest
      | none => .char '[' :: ofSigns n rest
    | (c, _) => .char c :: ofSigns n rest

def parse (signs : List Sign) : Pattern := ofSigns signs.length (Sign.unescaped signs)

/-- Whether signs without escapes may stand for more than one text. -/
def isOpen : List Sign → Bool
  | [] => false
  | ('*', false) :: _ | ('?', false) :: _ => true
  | ('[', false) :: rest =>
    let inner := match rest with
      | ('!', false) :: more => more
      | rest => rest
    (inner.drop 1).contains (']', false) || isOpen rest
  | _ :: rest => isOpen rest

/-- Whether a part stands for a character. -/
def fits (c : Char) : Element → Bool
  | .char d => c == d
  | .one => true
  | .many => false
  | .set isNegated members => members.any (holds c) != isNegated

/-- Whether a pattern stands for a text. -/
def admits : Pattern → List Char → Bool
  | [], s => s.isEmpty
  | .many :: p, [] => admits p []
  | .many :: p, c :: s => admits p (c :: s) || admits (.many :: p) s
  | _ :: _, [] => false
  | element :: p, c :: s => fits c element && admits p s
termination_by p s => (p.length, s.length)

end Pattern

end Fleet.Shell
