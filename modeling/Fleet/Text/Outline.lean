/-!
# Outlines

An outline shows how a thing is composed: each part stands on lines of its own, behind its key if it has one, and
the parts of a part are indented further.
-/

namespace Fleet.Text

/-- How a thing is composed. -/
inductive Outline where
  | word (text : String)
  /-- parts between an opening and a closing text, some of them with keys -/
  | group (opening closing : String) (parts : List (Option Outline × Outline))
  deriving Inhabited

namespace Outline

def optional {α : Type} (outline : α → Outline) : Option α → Outline
  | none => .word "None"
  | some x => .group "Some(" ")" [(none, outline x)]

/-- A thing of a kind, with its fields by their names. -/
def record (kind : String) (fields : List (String × Outline)) : Outline :=
  .group (kind ++ " \x7b") "\x7d" (fields.map fun (name, x) => (some (.word name), x))

/-- Lines with a step of indentation before each. -/
def indented : (isFresh : Bool) → List Char → List Char
  | _, [] => []
  | isFresh, c :: rest =>
    (if isFresh then [' ', ' ', ' ', ' '] else []) ++ c :: indented (c == '\n') rest

mutual

def chars : Outline → List Char
  | .word text => text.toList
  | .group opening closing [] => (opening ++ closing).toList
  | .group opening closing (part :: parts) =>
    opening.toList ++ '\n' :: indented true (partChars part ++ partsChars parts) ++ closing.toList

/-- The characters of parts, each with a comma and the end of its line. -/
def partsChars : List (Option Outline × Outline) → List Char
  | [] => []
  | part :: parts => partChars part ++ partsChars parts

/-- The characters of a part, with a comma and the end of its line. -/
def partChars : Option Outline × Outline → List Char
  | (none, x) => x.chars ++ [',', '\n']
  | (some key, x) => key.chars ++ [':', ' '] ++ x.chars ++ [',', '\n']

end

def text (x : Outline) : String := String.ofList x.chars

end Outline

end Fleet.Text
