import Fleet.Shell.Action

/-!
# Finding programs

A program that is named without a slash is looked for in the directories of a search path, and the shell remembers
where it has been found.
-/

namespace Fleet.Shell

/-- The search path of a shell that has none. -/
def standardPath : String := "/usr/local/sbin:/usr/local/bin:/usr/sbin:/usr/bin:/sbin:/bin"

/-- The path of a name in a directory of a search path. -/
def placed (directory name : String) : String := if directory = "" then name else directory ++ "/" ++ name

/-- The paths that a name may have by a search path. -/
def candidates (path name : String) : List String :=
  (path.toList.splitOn ':').map fun directory => placed (String.ofList directory) name

def program? (d : Directory) (path : String) : Except SystemFault Unit :=
  match d.node (Octets.path path) with
  | .ok (.file _ true) => .ok ()
  | .ok _ => .error permissionDenied
  | .error fault => .error fault

/-- The first of some paths that leads to a program, or the last fault that is more than that nothing is there. -/
def firstProgram (d : Directory) : List String → SystemFault → Except SystemFault String
  | [], fault => .error fault
  | path :: rest, fault =>
    match program? d path with
    | .ok () => .ok path
    | .error .notFound | .error .notDirectory => firstProgram d rest fault
    | .error other => firstProgram d rest other

/-- The shell's words for a program that cannot be started. -/
def startingFault : SystemFault → String
  | .notFound | .notDirectory => "not found"
  | fault => reason fault

def searchPath : Action String := return ((← current).value? "PATH").getD ""

def findProgram (path name : String) : Action (Except SystemFault String) := do
  match (← current).places.lookup name with
  | some found => return .ok found
  | none => return firstProgram (← here) (candidates path name) .notFound

/-- The shell remembers where a program is. -/
def remember (name place : String) : Action Unit := change fun x =>
  if (x.places.lookup name).isSome then x else { x with places := x.places ++ [(name, place)] }

/-- The rows of a table of names, in which a name has its row by the sum of its characters. -/
def rowOf (rows : Nat) (name : String) : Nat :=
  match name.toList with
  | [] => 0
  | c :: rest => (c.toNat * 16 + (c :: rest).foldl (fun n c => n + c.toNat) 0) % rows

/-- Names with what is known of them, in the order of their rows. -/
def inRows {α : Type} (rows : Nat) (table : List (String × α)) : List (String × α) :=
  table.mergeSort fun a b => rowOf rows a.1 ≤ rowOf rows b.1

end Fleet.Shell
