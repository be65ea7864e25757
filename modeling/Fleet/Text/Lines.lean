/-!
# Lines of a text

A line ends at a newline; a carriage return right before that newline belongs to the line's end.
What follows the last newline is a line only if it is not empty, and keeps a carriage return.
-/

namespace Fleet.Text

/-- A line without the carriage return of its terminator. -/
def dropReturn (line : List Char) : List Char :=
  if line.getLast? = some '\r' then line.dropLast else line

/-- The lines of a text, without their terminators. -/
def lines (s : List Char) : List (List Char) :=
  let parts := s.splitOn '\n'
  parts.dropLast.map dropReturn ++ (parts.getLast?.filter (· ≠ [])).toList

/-- The texts between the separators; the empty text is one empty part. -/
def split (separator : Char) (s : String) : List String :=
  (s.toList.splitOn separator).map String.ofList

/-- The parts before and after the first separator. -/
def splitOnce? (separator : Char) (s : String) : Option (String × String) :=
  match s.toList.span (· != separator) with
  | (_, []) => none
  | (before, _ :: after) => some (String.ofList before, String.ofList after)

end Fleet.Text
