import Fleet.Fault
import Fleet.Text.Blank
import Fleet.Text.Lines

/-!
# Node files

A node file lists one node a line, as three fields between commas: id, descriptor and node type.
Blanks around a field do not count, and a line of blanks is skipped.  The first line that has another
number of fields, or a blank field, is the fault of the file; lines are counted from one, skipped ones
included.
-/

namespace Fleet

/-- A node as its file describes it. -/
structure NodeEntry where
  id : String
  descriptor : String
  nodeType : String
  deriving DecidableEq, Inhabited

namespace NodeFile

def fields (line : List Char) : List String :=
  ((Text.trim line).splitOn ',').map fun f => String.ofList (Text.trim f)

/-- The node a line describes, if it is not blank, or what is wrong with it. -/
def readLine (line : List Char) : Except LineFault (Option NodeEntry) :=
  if Text.trim line = [] then .ok none
  else
    match fields line with
    | [id, descriptor, nodeType] =>
      if id = "" ∨ descriptor = "" ∨ nodeType = "" then .error .emptyField
      else .ok (some ⟨id, descriptor, nodeType⟩)
    | other => .error (.fieldCount other.length)

/-- The nodes that lines describe, the first of which has the given number. -/
def readLines (path : Path) : Nat → List (List Char) → Except Fault (List NodeEntry)
  | _, [] => .ok []
  | number, line :: rest =>
    match readLine line with
    | .error reason => .error (.malformedNodeFile path number reason)
    | .ok none => readLines path (number + 1) rest
    | .ok (some entry) =>
      match readLines path (number + 1) rest with
      | .ok entries => .ok (entry :: entries)
      | .error fault => .error fault

def parse (path : Path) (text : String) : Except Fault (List NodeEntry) :=
  readLines path 1 (Text.lines text.toList)

end NodeFile

end Fleet
