import Fleet.Fault
import Fleet.FileTree

/-!
# Finding files by their paths

A path is walked name by name from the directory that it starts in.  All but the last name must lead to
directories; the last one may name something that is not there yet.  Here are the calls by which programs
look at a file tree and change it, each with the faults that the operating system would report.
-/

namespace Fleet

open Text (Bytes)

/-- A place in a file tree: the tree and the directory that paths start in. -/
structure Directory where
  tree : FileTree
  /-- where relative paths start -/
  location : Location
  deriving Inhabited

/-- Where a path leads. -/
structure Target where
  location : Location
  /-- the path ends in a name, and not in `.`, in `..` or at the top -/
  isNamed : Bool
  /-- the path ends in a slash -/
  endsInSlash : Bool

namespace Directory

/-- The greatest length of a name, in bytes. -/
def maxName : Nat := 255

/-- The greatest length of a path, in bytes. -/
def maxPath : Nat := 4095

/-- Where a name leads from a directory.  The last name of a path may be missing. -/
def step (t : FileTree) (l : Location) (name : String) (isLast : Bool) : Except SystemFault Location :=
  if !t.isDirectory l then .error .notDirectory
  else if name = "." then .ok l
  else if name = ".." then .ok l.dropLast
  else if maxName < name.utf8ByteSize then .error .nameTooLong
  else if !isLast ∧ (t.at? (l ++ [name])).isNone then .error .notFound
  else .ok (l ++ [name])

def walk (t : FileTree) : Location → List String → Except SystemFault Location
  | l, [] => .ok l
  | l, name :: rest =>
    match step t l name rest.isEmpty with
    | .ok next => walk t next rest
    | .error fault => .error fault

def find (d : Directory) (p : Path) : Except SystemFault Target :=
  let pieces := (p.text.toList.splitOn '/').filter (· ≠ [])
  let names := pieces.map String.ofList
  if '\x00' ∈ p.text.toList then .error .nulInName
  else if p.text = "" then .error .notFound
  else if maxPath < p.text.utf8ByteSize then .error .nameTooLong
  else
    (walk d.tree (if p.isAbsolute then [] else d.location) names).map fun location =>
      { location
        isNamed := names.getLast?.any fun name => name ≠ "." ∧ name ≠ ".."
        endsInSlash := p.text.toList.getLast? = some '/' }

def node (d : Directory) (p : Path) : Except SystemFault FileNode := do
  let target ← d.find p
  match d.tree.at? target.location with
  | none => .error .notFound
  | some node => if target.endsInSlash ∧ !node.isDirectory then .error .notDirectory else .ok node

def isDirectory (d : Directory) (p : Path) : Bool :=
  match d.node p with
  | .ok node => node.isDirectory
  | .error _ => false

def makeDirectory (d : Directory) (p : Path) : Except SystemFault Directory := do
  let target ← d.find p
  if !target.isNamed ∨ (d.tree.at? target.location).isSome then .error .alreadyExists
  else .ok { d with tree := d.tree.put target.location (.directory []) }

/-- What the file at a path holds. -/
def read (d : Directory) (p : Path) : Except SystemFault Bytes := do
  match ← d.node p with
  | .file bytes _ => .ok bytes
  | .device _ => .ok []
  | .directory _ => .error .isDirectory

def readText (d : Directory) (p : Path) : Except SystemFault String := do
  match Text.ofBytes? (← d.read p) with
  | some text => .ok text
  | none => .error .notText

/-- The location at which a file can be written: a file there already, or a free one in a directory. -/
def writable (d : Directory) (p : Path) : Except SystemFault Location := do
  let target ← d.find p
  if target.endsInSlash ∨ !target.isNamed ∨ d.tree.isDirectory target.location then .error .isDirectory
  else .ok target.location

/-- The file at a path now holds the given bytes alone.  A device keeps none of them. -/
def write (d : Directory) (p : Path) (bytes : Bytes) : Except SystemFault Directory := do
  let location ← d.writable p
  match d.tree.at? location with
  | some (.device .full) => if bytes = [] then .ok d else .error .noSpace
  | some (.device _) => .ok d
  | _ => .ok { d with tree := d.tree.put location (.holding bytes (d.tree.at? location)) }

end Directory

end Fleet
