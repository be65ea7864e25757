import Fleet.Shell.Builtin.Usage
import Fleet.Shell.Search

/-!
# The working directory

The builtins that change the working directory and tell it.
-/

namespace Fleet.Shell.Builtin

/-- The location that a path leads to by its names alone: a name after which `..` stands need not be there. -/
def followed (start : Location) (path : String) : Location :=
  ((Octets.decode path).toList.splitOn '/').foldl (fun l name =>
    match String.ofList name with
    | "" | "." => l
    | ".." => l.dropLast
    | name => l ++ [name]) (if path.startsWith "/" then [] else start)

/-- Whether a path is not looked for in other directories. -/
def isFixedPath (path : String) : Bool :=
  path.startsWith "/" || ((path.toList.splitOn '/').headD []) ∈ [['.'], ['.', '.']]

/-- The place of a directory that is looked for, and whether it is told. -/
def soughtDirectory (d : Directory) (places : Option String) (path : String) : String × Bool :=
  match places with
  | none => (path, false)
  | some places =>
    match (candidates places path).find? fun candidate => d.isDirectory (Octets.path candidate) with
    | some found => (found, found != path)
    | none => (path, false)

def cd (args : List String) : Action Nat := do
  let (flags, operands) ← options ['L', 'P'] args
  let isPhysical := (flags.getLast?.map (·.1)) == some 'P'
  let x ← current
  let (goal, isReturn) := match operands with
    | [] => ((x.value? "HOME").getD "", false)
    | "-" :: _ => ((x.value? "OLDPWD").getD "", true)
    | goal :: _ => (goal, false)
  let d ← here
  let (path, isFound) :=
    if isFixedPath goal then (goal, false)
    else soughtDirectory d (x.value? "CDPATH") (if goal = "" then "." else goal)
  let location := if isPhysical then (d.find (Octets.path path)).toOption.map (·.location) else
    some (followed d.location path)
  match location.filter d.tree.isDirectory with
  | none => blame ("can't cd to " ++ goal)
  | some location =>
    alterOwn fun p => { p with location }
    change fun x =>
      let give := fun (x : Session) (name : String) (l : Location) =>
        x.bind name ⟨some (locationText l), true, x.isReadOnly name⟩
      let x := give (give x "OLDPWD" d.location) "PWD" location
      { x with places := x.places.filter (·.2.startsWith "/") }
    if isReturn || isFound then say (locationText location ++ "\n")
    return 0

def pwd (args : List String) : Action Nat := do
  let _ ← options ['L', 'P'] args
  say (locationText (← ownProcess).location ++ "\n")
  return 0

end Fleet.Shell.Builtin
