import Fleet.FileTree.Walk

/-!
# Folders that must be there

A folder is ensured with all folders above it.  An errand climbs from the path to its ancestors until a folder
can be made or is there, and then makes the missing ones from the outermost on.  Every step is one call to the
operating system, so that errands on the same tree can be interleaved; a folder that someone else has made in
the meantime is as good as one's own.
-/

namespace Fleet

/-- How far the ensuring of a folder has come. -/
inductive FolderErrand where
  /-- the folder at the first path is to be made; the others, outermost first, are missing -/
  | climb (next : Path) (missing : List Path)
  /-- something is at the path already -/
  | inspect (found : Path) (missing : List Path)
  /-- the missing folders are to be made -/
  | build (missing : List Path)
  /-- something is at the first of the missing paths by now -/
  | confirm (found : Path) (missing : List Path)
  /-- something is in the way, which may yet be what is wanted -/
  | recheck
  | done (result : Except SystemFault Unit)

namespace FolderErrand

/-- The errand at its beginning: nothing is to be made for the empty path and for the top. -/
def start (p : Path) : FolderErrand :=
  if p.parent?.isNone then .done (.ok ()) else .climb p []

/-- The errand after a fault.  What is in the way of a part may still leave the whole folder there. -/
def failed : SystemFault → FolderErrand
  | .alreadyExists => .recheck
  | fault => .done (.error fault)

/-- The errand when a folder is missing: its parent comes next, or the making if that is the starting
directory or the top. -/
def ascend (p : Path) (missing : List Path) : FolderErrand :=
  match p.parent? with
  | some parent => if parent.parent?.isNone then .build (p :: missing) else .climb parent (p :: missing)
  | none => .build (p :: missing)

def proceed : List Path → FolderErrand
  | [] => .done (.ok ())
  | missing => .build missing

/-- One call of an errand for a folder. -/
def step (goal : Path) (d : Directory) : FolderErrand → Directory × FolderErrand
  | .climb p missing =>
    match d.makeDirectory p with
    | .ok d => (d, proceed missing)
    | .error .notFound => (d, ascend p missing)
    | .error .alreadyExists => (d, .inspect p missing)
    | .error fault => (d, failed fault)
  | .inspect p missing => (d, if d.isDirectory p then proceed missing else failed .alreadyExists)
  | .build [] => (d, .done (.ok ()))
  | .build (p :: rest) =>
    match d.makeDirectory p with
    | .ok d => (d, proceed rest)
    | .error .alreadyExists => (d, .confirm p rest)
    | .error fault => (d, failed fault)
  | .confirm p rest => (d, if d.isDirectory p then proceed rest else failed .alreadyExists)
  | .recheck => (d, .done (if d.isDirectory goal then .ok () else .error .alreadyExists))
  | .done result => (d, .done result)

/-- An errand alone, for so many steps. -/
def run (goal : Path) : Nat → Directory → FolderErrand → Directory × FolderErrand
  | _, d, .done result => (d, .done result)
  | 0, d, e => (d, e)
  | fuel + 1, d, e =>
    let (d, e) := step goal d e
    run goal fuel d e

def result : FolderErrand → Except SystemFault Unit
  | .done result => result
  | _ => .error .notFound

/-- More steps than an errand for a path needs: two up and two down for each component, and one at the end. -/
def steps (p : Path) : Nat := 4 * p.components.length + 2

end FolderErrand

namespace Directory

def ensureFolder (d : Directory) (p : Path) : Directory × Except SystemFault Unit :=
  let (d, e) := FolderErrand.run p (FolderErrand.steps p) d (.start p)
  (d, e.result)

/-- The folders at paths are ensured, up to the first that cannot be. -/
def ensureFolders (d : Directory) : List Path → Directory × Except SystemFault Unit
  | [] => (d, .ok ())
  | p :: rest =>
    match d.ensureFolder p with
    | (d, .ok ()) => d.ensureFolders rest
    | (d, .error fault) => (d, .error fault)

/-- The folder in which a file is to lie is ensured. -/
def ensureParent (d : Directory) (file : Path) : Directory × Except SystemFault Unit :=
  d.ensureFolders file.parent?.toList

end Directory

end Fleet
