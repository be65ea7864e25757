import Fleet.Path

/-!
# Normal paths

The normal form of a path is rebuilt from its components with a stack: a name goes on top, `.` does
nothing, and `..` takes the top off.  Where there is nothing to take off, because the stack is empty or
holds only the root, `..` is put on instead.  A `..` that was put on is taken off by the next one like a
name.  An empty stack is written `.`.
-/

namespace Fleet.Path

/-- What one component does to the stack of components read so far, whose top comes first. -/
def pile (stack : List Component) : Component → List Component
  | .current => stack
  | .root => [.root]
  | .name text => .name text :: stack
  | .up =>
    match stack with
    | [] => [.up]
    | [.root] => [.up, .root]
    | _ :: below => below

/-- The stack that the components leave, in reading order. -/
def pileUp (parts : List Component) : List Component :=
  (parts.foldl pile []).reverse

def normal (p : Path) : Path :=
  match pileUp p.components with
  | [] => ⟨"."⟩
  | parts => ofComponents parts

/-- A path in normal form, read from a root in normal form unless it is absolute. -/
def normalFrom (p root : Path) : Path :=
  if p.isAbsolute then p.normal else (root.join p).normal

end Fleet.Path
