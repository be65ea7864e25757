import Fleet.Shell.Arithmetic
import Fleet.Shell.Pattern
import Fleet.Shell.Variable

/-!
# Expanding words

A word becomes pieces: characters that are fixed, and characters that may be split into fields.  Fields that may
stand for more than one text as patterns become the names of the files they stand for.  What commands put out is
given by a parameter.
-/

namespace Fleet.Shell

/-- A piece of an expanded word. -/
inductive Piece where
  | fixed (signs : List Sign)
  /-- there is a field here, even if it is empty -/
  | mark
  /-- what is split into fields; each argument for itself is split only between arguments -/
  | loose (isEach : Bool) (signs : List Sign)

/-! ### fields -/

def border : Char := '\x00'

/-- The fields so far, the last one first, and the one that is being read, its last sign first. -/
structure Splitter where
  fields : List (List Sign)
  current : List Sign
  /-- the field is there even if it is empty -/
  isMarked : Bool
  /-- the last field was ended by a blank -/
  isAfterBlank : Bool
  /-- the last piece that is split was that of each argument for itself -/
  wasEach : Bool
  /-- how many fields may still come, if there is a limit -/
  left : Option Nat
  /-- as many signs of the last field are kept -/
  kept : Option Nat

namespace Splitter

def start (limit : Option Nat) : Splitter := ⟨[], [], false, false, false, limit, none⟩

def add (x : Splitter) (sign : Sign) : Splitter := { x with current := sign :: x.current, isAfterBlank := false }

/-- The splitter after the end of a field. -/
def close (x : Splitter) : Splitter :=
  { x with fields := x.current.reverse :: x.fields, current := [], isMarked := false }

/-- The splitter after a sign of the last field, which gets all that is left but blanks at its end. -/
def addLast (isSeparator isBlank : Bool) (x : Splitter) (sign : Sign) : Splitter :=
  if isBlank then
    { x with current := sign :: x.current, kept := x.kept <|> some x.current.length }
  else { x.add sign with kept := if isSeparator && x.isAfterBlank then x.kept else none }

def separate (isQuiet isBlank : Bool) (x : Splitter) (sign : Sign) : Splitter :=
  let isAfterBlank := isBlank && !isQuiet
  if x.current = [] ∧ !x.isMarked ∧ isAfterBlank then x
  else if x.left = some 1 then
    { x with current := sign :: x.current, left := some 0, kept := some x.current.length, isAfterBlank }
  else { x.close with left := x.left.map (· - 1), isAfterBlank }

/-- The splitter after a sign that may separate fields. -/
def step (separators : List Char) (isEach isQuiet : Bool) (x : Splitter) (sign : Sign) : Splitter :=
  let isSeparator := sign.1 == border || (!isEach && separators.contains sign.1)
  let isBlank := isSeparator && (sign.1 == border || sign.1 ∈ [' ', '\t', '\n'])
  if x.left = some 0 then x.addLast isSeparator isBlank sign
  else if x.isAfterBlank then
    if isBlank then x else if isSeparator then { x with isAfterBlank := false } else x.add sign
  else if isSeparator then x.separate isQuiet isBlank sign
  else x.add sign

def piece (separators : List Char) (x : Splitter) : Piece → Splitter
  | .mark => { x with isMarked := true }
  | .fixed signs => { x with current := signs.reverse ++ x.current }
  | .loose isEach signs =>
    let isQuiet := isEach || x.wasEach
    signs.foldl (step separators isEach isQuiet) { x with isAfterBlank := false, wasEach := isEach }

def finish (x : Splitter) : List (List Sign) :=
  let last := if x.wasEach then x.current else x.current.drop (x.current.length - x.kept.getD x.current.length)
  (if x.wasEach ∨ x.isMarked ∨ last ≠ [] then last.reverse :: x.fields else x.fields).reverse

end Splitter

/-- The fields that pieces are split into, of which there may be a greatest number. -/
def split (separators : List Char) (limit : Option Nat) (pieces : List Piece) : List (List Sign) :=
  (pieces.foldl (Splitter.piece separators) (.start limit)).finish

def signsOf (pieces : List Piece) : List Sign :=
  pieces.flatMap fun piece =>
    match piece with
    | .fixed signs | .loose _ signs => signs
    | .mark => []

def textOf (pieces : List Piece) : String := Sign.text (signsOf pieces)

/-! ### names of files -/

/-- The names in the directory at a path, with its own and that of its parent. -/
def namesAt (d : Directory) (path : String) : List String :=
  match d.find (Octets.path (if path = "" then "." else path)) with
  | .ok target =>
    if d.tree.isDirectory target.location then
      "." :: ".." :: (d.tree.names target.location).map Octets.encode
    else []
  | .error _ => []

/-- The paths that patterns between slashes stand for, after a path that ends in a slash. -/
def paths (d : Directory) : List (List Sign) → String → List String
  | [], _ => []
  | piece :: rest, before =>
    if !(piece :: rest).any Pattern.isOpen then
      let path := before ++ String.intercalate "/" ((piece :: rest).map Sign.text)
      if (d.node (Octets.path path)).toOption.isSome then [path] else []
    else if !Pattern.isOpen piece then paths d rest (before ++ Sign.text piece ++ "/")
    else
      let pattern := Pattern.ofSigns piece.length piece
      let isHidden := piece.head?.any (·.1 == '.')
      let names := (namesAt d before).filter fun name =>
        (isHidden || name.toList.head? != some '.') && pattern.admits name.toList
      if rest = [] then names.map (before ++ ·) else names.flatMap fun name => paths d rest (before ++ name ++ "/")

/-- The texts that a field stands for. -/
def globbed (d : Directory) (field : List Sign) : List String :=
  let pieces := (Sign.unescaped field).splitOnP fun sign => sign.1 == '/'
  if !pieces.any Pattern.isOpen then [Sign.text field]
  else
    match paths d pieces "" with
    | [] => [Sign.text field]
    | names => names.mergeSort fun a b => a ≤ b

/-! ### parameters -/

/-- Arguments as one text.  Where they are split, or where each stands for itself, there are borders between
them; else there is the first of the separators. -/
def joined (x : Session) (splits isQuoted isEach : Bool) : String :=
  let separator :=
    match x.value? "IFS" with
    | none => if isQuoted && isEach && splits then String.singleton border else " "
    | some separators =>
      if splits && (!isQuoted || isEach) then String.singleton border else (separators.take 1).toString
  String.intercalate separator x.arguments

def parameterValue? (x : Session) (splits isQuoted : Bool) : Parameter → Option String
  | .named name => x.value? name
  | .argument 0 => some x.name
  | .argument (n + 1) => x.arguments[n]?
  | .count => some (toString x.arguments.length)
  | .status => some (toString x.status)
  | .shell => some (toString x.shellId)
  | .background => x.lastBackground.map toString
  | .options => some x.flagText
  | .all => some (joined x splits isQuoted false)
  | .each => some (joined x splits isQuoted true)

def Parameter.text : Parameter → String
  | .named name => name
  | .argument n => toString n
  | .count => "#"
  | .all => "*"
  | .each => "@"
  | .status => "?"
  | .shell => "$"
  | .background => "!"
  | .options => "-"

/-- The text without its shortest or longest beginning, or end, that a pattern stands for. -/
def cutText (pattern : Pattern) (atEnd isLongest : Bool) (text : List Char) : List Char :=
  let lengths := List.range (text.length + 1)
  let hit := fun (n : Nat) =>
    pattern.admits (if atEnd then text.drop (text.length - n) else text.take n)
  match (if isLongest then lengths.reverse else lengths).find? hit with
  | some n => if atEnd then text.take (text.length - n) else text.drop n
  | none => text

/-! ### home directories -/

/-- The home directory of a user, or of the one who runs the shell. -/
def home? (x : Session) (user : String) : Option String :=
  if user = "" then x.value? "HOME" else [("root", "/root")].lookup user

/-- A text with a home directory for the tilde that it may begin with, as a part that is not read as a pattern and
one that is left. -/
def tilde? (x : Session) (isLast : Bool) (chars : List Char) : Option (String × List Char) :=
  match chars with
  | '~' :: rest =>
    let (user, after) := rest.span (· != '/')
    if after = [] ∧ !isLast then none else (home? x (String.ofList user)).map (·, after)
  | _ => none

def withHome (x : Session) (isLast : Bool) (chars : List Char) : Word :=
  match tilde? x isLast chars with
  | some (home, after) => [.text true home.toList, .text false after]
  | none => [.text false chars]

/-- A word with a home directory for the tilde that it may begin with. -/
def homeWord (x : Session) : Word → Word
  | .text false chars :: rest => withHome x rest.isEmpty chars ++ rest
  | w => w

/-- The value of an assignment with home directories for tildes at its beginning and after colons. -/
def homePath (x : Session) (isFirst : Bool) : Word → Word
  | [] => []
  | .text false chars :: rest =>
    let pieces := chars.splitOn ':'
    let parts := (pieces.zipIdx.map fun (piece, i) =>
      if 0 < i ∨ isFirst then withHome x (i + 1 < pieces.length ∨ rest.isEmpty) piece else [.text false piece])
    List.intercalate [.text false [':']] parts ++ homePath x false rest
  | part :: rest => part :: homePath x false rest

/-! ### words -/

/-- How a word is expanded. -/
structure Manner where
  /-- it is split into fields -/
  splits : Bool
  /-- its own characters may separate fields -/
  isLoose : Bool

def pieces (isQuoted isEach : Bool) (text : String) : List Piece :=
  let signs := text.toList.map fun c => (c, isQuoted)
  [if isQuoted then if isEach then .loose true signs else .fixed signs else .loose false signs]

/-- The value of an expression; its assignments are made. -/
def sum (text : String) : Action String := do
  let x ← current
  match Arithmetic.evaluate ⟨x.value?, x.isReadOnly⟩ text.toList with
  | .ok (value, assigned) =>
    for (name, n) in assigned do setVariable name (toString n)
    return toString value
  | .error .overflow =>
    signal (← get).id 8
    throw .exit
  | .error fault => blame (fault.message text)

def expand (capture : Command → Action String) : Nat → Manner → Word → Action (List Piece)
  | 0, _, _ | _, _, [] => pure []
  | n + 1, m, part :: rest => do
    let first ← match part with
      | .text true chars => pure [.mark, .fixed (chars.map fun c => (c, true))]
      | .text false chars =>
        let signs := chars.map fun c => (c, false)
        pure [if m.isLoose then .loose false signs else .fixed signs]
      | .output isQuoted command => do pure (pieces isQuoted false (← capture command))
      | .arithmetic isQuoted body => do
        let text := textOf (← expand capture n ⟨false, false⟩ body)
        pure (pieces isQuoted false (← sum text))
      | .parameter isQuoted parameter modifier => do
        let x ← current
        let value := parameterValue? x m.splits isQuoted parameter
        let isEach := parameter == .each && !x.arguments.isEmpty
        let word := fun (w : Word) => do
          expand capture n { m with isLoose := true } (homeWord (← current) w)
        let text := fun (w : Word) => do
          return textOf (← expand capture n ⟨false, false⟩ (homeWord (← current) w))
        let known : Action Unit :=
          if value.isNone ∧ x.has 'u' then blame (parameter.text ++ ": parameter not set") else pure ()
        match modifier with
        | .unknown => blame "Bad substitution"
        | .plain => do
          known
          match value with
          | some value => pure (pieces isQuoted isEach value)
          | none => pure []
        | .length => do
          known
          let value := parameterValue? x false isQuoted parameter
          pure (pieces isQuoted false (toString (value.getD "").length))
        | .fallback kind orEmpty w => do
          let isMissing := value.isNone || (orEmpty && value == some "")
          match kind with
          | .substitute => if isMissing then word w else pure (pieces isQuoted isEach (value.getD ""))
          | .replace => if isMissing then pure [] else word w
          | .assign =>
            if isMissing then do
              let value ← text w
              setVariable parameter.text value
              pure (pieces isQuoted false value)
            else pure (pieces isQuoted isEach (value.getD ""))
          | .complain =>
            if isMissing then do
              let said ←
                if !w.isEmpty then text w
                else pure (if orEmpty then "parameter not set or null" else "parameter not set")
              blame (parameter.text ++ ": " ++ said)
            else pure (pieces isQuoted isEach (value.getD ""))
        | .cut atEnd isLongest w => do
          known
          match value with
          | none => pure []
          | some value => do
            let signs := signsOf (← expand capture n ⟨false, false⟩ (homeWord (← current) w))
            let rest := cutText (Pattern.parse signs) atEnd isLongest value.toList
            pure (pieces isQuoted isEach (String.ofList rest))
    return first ++ (← expand capture n m rest)

/-- The nesting and the number of parts that are expanded. -/
def expansionFuel : Nat := 100000

def fields (capture : Command → Action String) (word : Word) : Action (List String) := do
  let found ← expand capture expansionFuel ⟨true, false⟩ (homeWord (← current) word)
  let x ← current
  let d ← here
  let fields := split x.separators none found
  return fields.flatMap fun field => if x.has 'f' then [Sign.text field] else globbed d field

/-- The text of a word that is not split. -/
def single (capture : Command → Action String) (word : Word) : Action String := do
  return textOf (← expand capture expansionFuel ⟨false, false⟩ (homeWord (← current) word))

def valueText (capture : Command → Action String) (word : Word) : Action String := do
  return textOf (← expand capture expansionFuel ⟨false, false⟩ (homePath (← current) true word))

def documentText (capture : Command → Action String) (word : Word) : Action String := do
  return textOf (← expand capture expansionFuel ⟨false, false⟩ word)

def patternOf (capture : Command → Action String) (word : Word) : Action Pattern := do
  return Pattern.parse (signsOf (← expand capture expansionFuel ⟨false, false⟩ (homeWord (← current) word)))

end Fleet.Shell
