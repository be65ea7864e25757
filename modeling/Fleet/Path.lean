/-!
# Paths

A path is the text a user wrote; nothing cleans it up on the way.  Reading it component by component
drops repeated and trailing slashes and every `.` but a leading one.  Joining works on the text: an
absolute right side replaces the left one, and otherwise exactly one slash is put between them, unless
the left side is empty or ends in one already.
-/

namespace Fleet

/-- A path, as its plain text. -/
structure Path where
  text : String
  deriving DecidableEq, Inhabited

namespace Path

/-- What a path is read as, from left to right. -/
inductive Component where
  /-- the slash that an absolute path begins with -/
  | root
  /-- a leading `.` -/
  | current
  /-- `..` -/
  | up
  /-- any other text between slashes -/
  | name (text : String)
  deriving DecidableEq, Inhabited

/-- Whether the path begins at the root. -/
def isAbsolute (p : Path) : Bool :=
  p.text.toList.head? = some '/'

/-! ### reading -/

/-- The component a piece between slashes stands for; empty pieces and `.` stand for none. -/
def Component.ofPiece? (piece : List Char) : Option Component :=
  match piece with
  | [] => none
  | ['.'] => none
  | ['.', '.'] => some .up
  | _ => some (.name (String.ofList piece))

/-- The components of a text: the root if it begins with a slash, or else a leading `.`, and then the
pieces between slashes. -/
def componentsOf (s : List Char) : List Component :=
  let pieces := s.splitOn '/'
  let body := pieces.filterMap Component.ofPiece?
  if s.head? = some '/' then .root :: body
  else if pieces.head? = some ['.'] then .current :: body
  else body

def components (p : Path) : List Component :=
  componentsOf p.text.toList

/-- The name of the last component, if that is a name. -/
def fileName? (p : Path) : Option String :=
  match p.components.getLast? with
  | some (.name text) => some text
  | _ => none

/-! ### writing -/

def Component.text : Component → String
  | .root => "/"
  | .current => "."
  | .up => ".."
  | .name text => text

/-- One path after another: the right side alone if it is absolute, or else both with one slash between
them, which an empty left side or one that ends in a slash does not need. -/
def join (base rest : Path) : Path :=
  if rest.isAbsolute then rest
  else if base.text.toList.getLast?.all (· == '/') then ⟨base.text ++ rest.text⟩
  else ⟨base.text ++ "/" ++ rest.text⟩

/-- A path followed by a text, by the rule of `join`. -/
def child (base : Path) (rest : String) : Path :=
  base.join ⟨rest⟩

/-- The path that joining the components one after the other gives. -/
def ofComponents (parts : List Component) : Path :=
  parts.foldl (fun p c => p.child c.text) ⟨""⟩

/-- The path without its last component; the root and the empty path have no parent. -/
def parent? (p : Path) : Option Path :=
  match p.components.getLast? with
  | none | some .root => none
  | some _ => some (ofComponents p.components.dropLast)

end Path

end Fleet
