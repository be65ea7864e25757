import Fleet.Text.Utf8

/-!
# File trees

A file tree is a directory with all that is below it.  A node is named by the names on the way to it from
the top.  Nodes are put only where their parent is a directory, so that every node is within directories.
-/

namespace Fleet

open Text (Bytes)

/-- What gives and takes bytes without keeping them. -/
inductive Device where
  /-- it gives nothing -/
  | null
  /-- it gives zeros without end -/
  | zero
  /-- it gives zeros without end, and takes nothing -/
  | full
  deriving DecidableEq, Inhabited

/-- A file, a device or a directory with named nodes. -/
inductive FileNode where
  /-- a file, which may be started as a program -/
  | file (bytes : Bytes) (isProgram : Bool)
  | device (kind : Device)
  | directory (entries : List (String × FileNode))
  deriving Inhabited

/-- The names on the way from the top to a node. -/
abbrev Location := List String

namespace FileNode

/-- The file that holds bytes in the place of a node.  It is a program if the file there is one. -/
def holding (bytes : Bytes) : Option FileNode → FileNode
  | some (.file _ isProgram) => .file bytes isProgram
  | _ => .file bytes false

def isDirectory : FileNode → Bool
  | .directory _ => true
  | _ => false

/-- The entries with a node under a name, in the place of the one that had it. -/
def putEntry (name : String) (node : FileNode) :
    List (String × FileNode) → List (String × FileNode)
  | [] => [(name, node)]
  | (key, other) :: rest =>
    if key = name then (key, node) :: rest else (key, other) :: putEntry name node rest

/-- The node at a location below a node. -/
def at? : FileNode → Location → Option FileNode
  | node, [] => some node
  | .directory entries, name :: rest => (entries.lookup name).bind (·.at? rest)
  | _, _ :: _ => none

/-- The tree with a node at a location, if its parent is there and is a directory. -/
def put? : FileNode → Location → FileNode → Option FileNode
  | _, [], new => some new
  | .directory entries, name :: rest, new =>
    match entries.lookup name, rest with
    | some child, _ => (child.put? rest new).map fun c => .directory (putEntry name c entries)
    | none, [] => some (.directory (putEntry name new entries))
    | none, _ :: _ => none
  | _, _ :: _, _ => none

/-- The tree without the node at a location. -/
def erase : FileNode → Location → FileNode
  | .directory entries, [name] => .directory (entries.filter (·.1 ≠ name))
  | .directory entries, name :: rest =>
    match entries.lookup name with
    | some child => .directory (putEntry name (child.erase rest) entries)
    | none => .directory entries
  | node, _ => node

mutual

/-- All nodes below a node with their locations, each directory before what is in it. -/
def nodes (above : Location) : FileNode → List (Location × FileNode)
  | .directory entries => entryNodes above entries
  | _ => []

/-- All nodes of entries with their locations. -/
def entryNodes (above : Location) : List (String × FileNode) → List (Location × FileNode)
  | [] => []
  | (name, node) :: rest =>
    (above ++ [name], node) :: nodes (above ++ [name]) node ++ entryNodes above rest

end

end FileNode

/-- A directory with all that is below it. -/
structure FileTree where
  entries : List (String × FileNode)
  deriving Inhabited

namespace FileTree

def empty : FileTree := ⟨[]⟩

def top (t : FileTree) : FileNode := .directory t.entries

def at? (t : FileTree) (l : Location) : Option FileNode := t.top.at? l

def isDirectory (t : FileTree) (l : Location) : Bool := (t.at? l).any (·.isDirectory)

def file? (t : FileTree) (l : Location) : Option Bytes :=
  match t.at? l with
  | some (.file bytes _) => some bytes
  | _ => none

/-- The tree with a node at a location below the top.  Nothing is put where the parent is not a directory. -/
def put (t : FileTree) (l : Location) (node : FileNode) : FileTree :=
  match l, t.top.put? l node with
  | _ :: _, some (.directory entries) => ⟨entries⟩
  | _, _ => t

/-- The tree without the node at a location. -/
def erase (t : FileTree) (l : Location) : FileTree :=
  match t.top.erase l with
  | .directory entries => ⟨entries⟩
  | _ => t

/-- All nodes below a location, with the names on the way from there. -/
def below (t : FileTree) (l : Location) : List (Location × FileNode) :=
  ((t.at? l).map (·.nodes [])).getD []

/-- The tree with a node at a location and with the directories on the way to it, as far as they are missing. -/
def plant (t : FileTree) (l : Location) (node : FileNode) : FileTree :=
  let folders := (List.range l.length).map l.take
  (folders.foldl (fun t folder => if (t.at? folder).isSome then t else t.put folder (.directory [])) t).put l node

/-- The nodes of a tree that another one does not have, or has with other bytes. -/
def changes (before after : FileTree) : List (Location × FileNode) :=
  (after.below []).filter fun (l, node) =>
    match node, before.at? l with
    | .file new _, some (.file old _) => new != old
    | _, some _ => false
    | _, none => true

def names (t : FileTree) (l : Location) : List String :=
  match t.at? l with
  | some (.directory entries) => (entries.map (·.1)).mergeSort fun a b => a ≤ b
  | _ => []

end FileTree

end Fleet
