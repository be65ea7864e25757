import Fleet.Shell.Escape
import Fleet.Shell.Tool

/-!
# Programs for files and directories

Programs that list, make, copy, move and remove the entries of directories.
-/

namespace Fleet.Shell.Tool

open Text (Bytes)

/-! ### listing -/

/-- The permissions of a node, as they are shown. -/
def permissions : FileNode → String
  | .directory _ => "drwxr-xr-x"
  | .file _ true => "-rwxr-xr-x"
  | .file _ false => "-rw-r--r--"
  | .device _ => "crw-rw-rw-"

/-- How many bytes a node is said to have. -/
def sizeOf : FileNode → Nat
  | .directory _ => 4096
  | .file bytes _ => bytes.length
  | .device _ => 0

/-- The line that tells all about a node. -/
def longLine (shown : String) (node : FileNode) : String :=
  let links := match node with
    | .directory entries => 2 + (entries.filter fun (entry : String × FileNode) => entry.2.isDirectory).length
    | _ => 1
  permissions node ++ " " ++ toString links ++ " root root " ++ toString (sizeOf node) ++ " Jan  1 00:00 " ++ shown

def ls : Program := fun name args => do
  let o : Options := ⟨"aAbBcCdfFgGhHiIklLmnNopqQrRsStTuUvwxXZ1", [("all", 'a'), ("almost-all", 'A'), ("directory", 'd'),
    ("recursive", 'R'), ("reverse", 'r'), ("classify", 'F')], false, 2⟩
  let x ← o.of name args
  let d ← here
  let paths := if x.operands.isEmpty then ["."] else x.operands
  let ordered := fun (names : List String) =>
    let sorted := names.mergeSort fun a b => a ≤ b
    if x.has 'r' then sorted.reverse else sorted
  let mark := fun (node : FileNode) =>
    match node with
    | .directory _ => if x.hasAny ['F', 'p'] then "/" else ""
    | .file _ true => if x.has 'F' then "*" else ""
    | _ => ""
  let line := fun (shown : String) (node : FileNode) =>
    let shown := if x.has 'Q' then "\"" ++ shown ++ "\"" else shown
    let shown := if x.has 'Z' ∧ !x.has 'l' then "? " ++ shown else shown
    (if x.has 'l' then longLine (shown ++ mark node) node else shown ++ mark node)
  let block := fun (lines : List String) =>
    if x.has 'm' ∧ !x.has 'l' then String.intercalate ", " lines ++ (if lines.isEmpty then "" else "\n")
    else String.join (lines.map (· ++ "\n"))
  let namesIn := fun (location : Location) =>
    let names := ordered ((d.tree.names location).map Octets.encode)
    if x.has 'a' then ordered ("." :: ".." :: (d.tree.names location).map Octets.encode)
    else if x.has 'A' then names
    else names.filter fun name => name.toList.head? != some '.'
  let nodeIn := fun (location : Location) (name : String) =>
    match name with
    | "." => d.tree.at? location |>.getD d.tree.top
    | ".." => d.tree.at? location.dropLast |>.getD d.tree.top
    | name => (d.tree.at? (location ++ [Octets.decode name])).getD (.directory [])
  let listing := fun (location : Location) =>
    let lines := (namesIn location).map fun name => line name (nodeIn location name)
    (if x.has 'l' then "total 0\n" else "") ++ block lines
  let mut present := []
  for path in ordered paths do
    match d.find (Octets.path path), d.node (Octets.path path) with
    | .ok target, .ok node => present := present ++ [(path, target.location, node)]
    | _, .error fault | .error fault, _ =>
      warn (name ++ ": cannot access " ++ quoted path ++ ": " ++ reason fault)
      finish 2
  let isShown := fun (node : FileNode) => x.has 'd' || !node.isDirectory
  let files := present.filter fun (_, _, node) => isShown node
  let folders := (present.filter fun (_, _, node) => !isShown node).map fun (path, location, _) => (path, location)
  say (block (files.map fun (path, _, node) => line path node))
  let deeper := fun (path : String) (location : Location) =>
    let below := (d.tree.below location).filter fun (l, node) =>
      node.isDirectory && (x.hasAny ['a', 'A'] || l.all fun name => name.toList.head? != some '.')
    let sorted := below.mergeSort fun a b => !b.1.lex a.1 fun x y => decide (x < y)
    sorted.map fun (l, _) => (path ++ "/" ++ Octets.encode (String.intercalate "/" l), location ++ l)
  let all := if x.has 'R' then folders.flatMap fun (path, location) => (path, location) :: deeper path location else folders
  let hasTitle := 1 < paths.length || x.has 'R'
  let blocks := all.map fun (path, location) => (if hasTitle then path ++ ":\n" else "") ++ listing location
  say ((if files ≠ [] ∧ all ≠ [] then "\n" else "") ++ String.intercalate "\n" blocks)

/-! ### making -/

def mkdir : Program := fun name args => do
  let x ← (options "m:pv" [("parents", 'p'), ("mode", 'm'), ("verbose", 'v')]).of name args
  if x.operands.isEmpty then misuse name "missing operand" 1
  for path in x.operands do
    let d ← here
    let p := Octets.path path
    let (after, result) :=
      if x.has 'p' then d.ensureFolder p
      else
        match d.makeDirectory p with
        | .ok after => (after, .ok ())
        | .error fault => (d, .error fault)
    setTree after.tree
    match result with
    | .ok () => if x.has 'v' && !d.isDirectory p then say (name ++ ": created directory " ++ quoted path ++ "\n")
    | .error fault => fail name ("cannot create directory " ++ quoted path ++ ": " ++ reason fault)

/-- Empty files are made where nothing is. -/
def touch : Program := fun name args => do
  let x ← (options "acd:fhmr:t:" [("no-create", 'c'), ("date", 'd'), ("reference", 'r')]).of name args
  if x.operands.isEmpty then misuse name "missing file operand" 1
  for path in x.operands do
    let d ← here
    match d.node (Octets.path path) with
    | .ok _ => pure ()
    | .error _ =>
      if !x.has 'c' then
        match ← openFile .append path with
        | .ok _ => pure ()
        | .error fault =>
          fail name ("cannot touch " ++ quoted path ++ ": " ++ reason fault)

/-- Whether the permissions that a mode asks for let a file be started, which it may do already. -/
def startable? (isProgram : Bool) (mode : String) : Option Bool :=
  if mode ≠ "" ∧ mode.toList.all Escape.isOctal then some (mode.toList.reverse.take 3 |>.any fun c => (c.toNat - '0'.toNat) % 2 = 1)
  else
    (mode.toList.splitOn ',').foldl (fun state clause =>
      state.bind fun isProgram =>
        let (who, rest) := clause.span (· ∈ ['u', 'g', 'o', 'a'])
        let isAll := who = [] ∨ 'a' ∈ who ∨ 'u' ∈ who
        match rest with
        | op :: letters =>
          if op ∉ ['+', '-', '='] ∨ !letters.all (· ∈ ['r', 'w', 'x', 'X', 's', 't', 'u', 'g', 'o']) then none
          else if 'x' ∈ letters then some (if op = '-' then isProgram && !decide isAll else true)
          else some (if op = '=' ∧ isAll then false else isProgram)
        | [] => none) (some isProgram)

def chmod : Program := fun name args => do
  let isMode := fun (word : String) =>
    word.startsWith "-" && (word.toList.drop 1).all (· ∈ ['r', 'w', 'x', 'X', 's', 't']) && 1 < word.length
  let words := args.filter fun word => isMode word || !word.startsWith "-"
  let isDeep := args.any fun word => word.startsWith "-" && !isMode word && word.contains 'R'
  match words with
  | [] => misuse name "missing operand" 1
  | [mode] => misuse name ("missing operand after " ++ quoted mode) 1
  | mode :: paths =>
    if (startable? false mode).isNone then misuse name ("invalid mode: " ++ quoted mode) 1
    for path in paths do
      let d ← here
      match d.find (Octets.path path), d.node (Octets.path path) with
      | .ok target, .ok node =>
        let below := if isDeep then (d.tree.below target.location).map fun (l, node) => (target.location ++ l, node) else []
        for (location, node) in (target.location, node) :: below do
          if let .file bytes isProgram := node then
            setTree ((← here).tree.put location (.file bytes ((startable? isProgram mode).getD isProgram)))
      | _, .error fault | .error fault, _ => fail name ("cannot access " ++ quoted path ++ ": " ++ reason fault)

/-! ### removing -/

def lastName (path : String) : String :=
  (((path.toList.splitOn '/').filter (· ≠ [])).getLast?.map String.ofList).getD "/"

/-- Files, and directories if that is asked for, are removed. -/
def rm : Program := fun name args => do
  let x ← (options "dfirRv" [("recursive", 'r'), ("force", 'f'), ("verbose", 'v'), ("dir", 'd')]).of name args
  if x.operands.isEmpty && !x.has 'f' then misuse name "missing operand" 1
  for path in x.operands do
    let d ← here
    match d.find (Octets.path path), d.node (Octets.path path) with
    | .ok target, .ok node =>
      let isDeep := x.hasAny ['r', 'R']
      let isEmpty := (d.tree.names target.location).isEmpty
      if node.isDirectory ∧ !isDeep ∧ !x.has 'd' then
        fail name ("cannot remove " ++ quoted path ++ ": Is a directory")
      else if node.isDirectory ∧ !isDeep ∧ !isEmpty then
        fail name ("cannot remove " ++ quoted path ++ ": Directory not empty")
      else if lastName path ∈ [".", ".."] then
        fail name ("refusing to remove '.' or '..' directory: skipping " ++ quoted path)
      else if target.location = [] then
        warn (name ++ ": it is dangerous to operate recursively on '/'")
        fail name "use --no-preserve-root to override this failsafe"
      else
        alter (·.remove target.location)
        if x.has 'v' then
          say ((if node.isDirectory then "removed directory " else "removed ") ++ quoted path ++ "\n")
    | _, .error fault | .error fault, _ =>
      if !x.has 'f' || (fault != .notFound && fault != .notDirectory) then
        fail name ("cannot remove " ++ quoted path ++ ": " ++ reason fault)

def rmdir : Program := fun name args => do
  let x ← (options "pv" [("parents", 'p'), ("ignore-fail-on-non-empty", 'i')]).of name args
  if x.operands.isEmpty then misuse name "missing operand" 1
  let above := fun (path : String) =>
    let names := (path.toList.splitOn '/').map String.ofList
    (List.range names.length).map fun i => String.intercalate "/" (names.take (names.length - i))
  for operand in x.operands do
    for path in if x.has 'p' then (above operand).filter (· ≠ "") else [operand] do
      let d ← here
      let failed := fun (text : String) => fail name ("failed to remove " ++ quoted path ++ ": " ++ text)
      match d.find (Octets.path path), d.node (Octets.path path) with
      | .ok target, .ok (.directory []) =>
        if lastName path = "." then failed "Invalid argument" else alter (·.remove target.location)
      | .ok _, .ok (.directory _) => if !x.has 'i' then failed "Directory not empty"
      | .ok _, .ok _ => failed "Not a directory"
      | _, .error fault | .error fault, _ => failed (reason fault)

/-! ### copying and moving -/

/-- Where something that is put at a path with a name of its own goes: into the directory there, or to the path
itself.  The answer is the location and the path that leads there. -/
def destination (d : Directory) (path name : String) : Except SystemFault (Location × String) := do
  if d.isDirectory (Octets.path path) then
    let inside := if path.endsWith "/" then path ++ name else path ++ "/" ++ name
    return ((← d.find (Octets.path inside)).location, inside)
  else
    let target ← d.find (Octets.path path)
    if target.endsInSlash then .error .notDirectory else return (target.location, path)

/-- Each of some paths is put at the last one, by an action from its path, its location and its node to the new
location and the path there. -/
def place (name : String) (x : Arguments) (failing : String → String → String)
    (use : String → Location → FileNode → Location → String → Action Unit) : Action Unit := do
  let (paths, goal) ← match x.value? 't', x.operands with
    | some goal, paths => pure (paths, goal)
    | none, [] => misuse name "missing file operand" 1
    | none, [path] => misuse name ("missing destination file operand after " ++ quoted path) 1
    | none, paths => pure (paths.dropLast, paths.getLastD "")
  let d ← here
  if (1 < paths.length || (x.value? 't').isSome) && !d.isDirectory (Octets.path goal) then
    let words := match d.node (Octets.path goal) with
      | .ok _ => "Not a directory"
      | .error fault => reason fault
    fail name ("target " ++ quoted goal ++ ": " ++ words)
  else
    for path in paths do
      let d ← here
      match d.find (Octets.path path), d.node (Octets.path path) with
      | .ok source, .ok node =>
        match destination d goal (lastName path) with
        | .ok (new, shown) =>
          let isThere := (d.tree.at? new).isSome
          if new = source.location then
            fail name (quoted path ++ " and " ++ quoted shown ++ " are the same file")
          else if x.has 'n' && isThere then pure ()
          else if !d.tree.isDirectory new.dropLast then
            fail name (failing path shown ++ ": " ++ reason .notFound)
          else use path source.location node new shown
        | .error fault => fail name (failing path goal ++ ": " ++ reason fault)
      | _, .error fault | .error fault, _ => fail name ("cannot stat " ++ quoted path ++ ": " ++ reason fault)

/-- A tree with a copy of a node at a location; directories there keep what they have. -/
def copied (tree : FileTree) (location : Location) (node : FileNode) : FileTree :=
  let one := fun (tree : FileTree) (location : Location) (node : FileNode) =>
    match node, tree.at? location with
    | .directory _, some (.directory _) => tree
    | .directory _, _ => tree.put location (.directory [])
    | .file bytes _, some (.file old isProgram) => tree.put location (.holding bytes (some (.file old isProgram)))
    | node, some (.device _) => let _ := node; tree
    | node, _ => tree.put location node
  (node.nodes []).foldl (fun tree (l, node) => one tree (location ++ l) node) (one tree location node)

/-- Files, and directories if that is asked for, are copied. -/
def cp : Program := fun name args => do
  let x ← (options "abdfHilLnpPrRst:Tuv" [("recursive", 'r'), ("archive", 'a'), ("force", 'f'), ("no-clobber", 'n'),
    ("verbose", 'v'), ("target-directory", 't')]).of name args
  place name x (fun _ goal => "cannot create regular file " ++ quoted goal) fun path old node new shown => do
    let tree := (← here).tree
    if node.isDirectory ∧ !x.hasAny ['r', 'R', 'a'] then
      fail name ("-r not specified; omitting directory " ++ quoted path)
    else if node.isDirectory ∧ old.isPrefixOf new then
      fail name ("cannot copy a directory, " ++ quoted path ++ ", into itself, " ++ quoted shown)
    else
      match node.isDirectory, tree.at? new with
      | true, some (.file ..) => fail name ("cannot overwrite non-directory " ++ quoted shown ++ " with directory " ++ quoted path)
      | false, some (.directory _) => fail name ("cannot overwrite directory " ++ quoted shown ++ " with non-directory")
      | _, _ =>
        setTree (copied tree new node)
        if x.has 'v' then say (quoted path ++ " -> " ++ quoted shown ++ "\n")

def mv : Program := fun name args => do
  let x ← (options "bfint:Tuv" [("force", 'f'), ("no-clobber", 'n'), ("verbose", 'v'), ("target-directory", 't')]).of name args
  place name x (fun path goal => "cannot move " ++ quoted path ++ " to " ++ quoted goal) fun path old node new shown => do
    let tree := (← here).tree
    if old.isPrefixOf new then
      fail name ("cannot move " ++ quoted path ++ " to a subdirectory of itself, " ++ quoted shown)
    else
      match node.isDirectory, tree.at? new with
      | true, some (.file ..) => fail name ("cannot overwrite non-directory " ++ quoted shown ++ " with directory " ++ quoted path)
      | false, some (.directory _) => fail name ("cannot overwrite directory " ++ quoted shown ++ " with non-directory")
      | true, some (.directory (_ :: _)) =>
        fail name ("cannot move " ++ quoted path ++ " to " ++ quoted shown ++ ": Directory not empty")
      | _, _ =>
        alter (·.move old new)
        if x.has 'v' then say ("renamed " ++ quoted path ++ " -> " ++ quoted shown ++ "\n")

def ln : Program := fun name args => do
  let x ← (options "fnrsTvt:" [("symbolic", 's'), ("force", 'f'), ("target-directory", 't')]).of name args
  let x := match x.operands with
    | [path] => { x with operands := [path, lastName path] }
    | _ => x
  place name x (fun _ goal => "failed to create link " ++ quoted goal) fun path _ node new shown => do
    let tree := (← here).tree
    if node.isDirectory ∧ !x.has 's' then fail name (path ++ ": hard link not allowed for directory")
    else if (tree.at? new).isSome ∧ !x.has 'f' then
      fail name ("failed to create " ++ (if x.has 's' then "symbolic" else "hard") ++ " link " ++ quoted shown ++ ": File exists")
    else setTree (tree.put new node)

end Fleet.Shell.Tool
