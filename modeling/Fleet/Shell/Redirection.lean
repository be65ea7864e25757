import Fleet.Shell.Expansion

/-!
# Redirections

The targets of all redirections of a command are worked out before the first of them is opened.  While a command
runs with redirections, what its descriptors led to before is kept under descriptors of the shell's own, so that
nobody takes a pipe for deserted.
-/

namespace Fleet.Shell

/-! ### descriptors -/

/-- The first of the descriptors that commands do not name. -/
def firstPrivate : Nat := 10

def point (descriptor file : Nat) : Action Unit := alterOwn fun p =>
  { p with descriptors := (descriptor, file) :: p.descriptors.filter (·.1 ≠ descriptor) }

def release (descriptor : Nat) : Action Unit := alterOwn fun p =>
  { p with descriptors := p.descriptors.filter (·.1 ≠ descriptor) }

/-- An open file is kept under a descriptor of the shell's own. -/
def keep (file : Nat) : Action Nat := do
  let used := (← ownProcess).descriptors.map (·.1)
  let descriptor := used.foldl (fun n d => max n (d + 1)) firstPrivate
  point descriptor file
  return descriptor

/-- All descriptors of the shell's own lead nowhere. -/
def releasePrivate : Action Unit := alterOwn fun p =>
  { p with descriptors := p.descriptors.filter (·.1 < firstPrivate) }

/-- An action after which some descriptors lead where they led before. -/
def keeping {α : Type} (descriptors : List Nat) (a : Action α) : Action α := do
  let before := (← ownProcess).descriptors
  let kept ← descriptors.eraseDups.mapM fun descriptor => do
    match before.lookup descriptor with
    | some file => return (descriptor, some (file, ← keep file))
    | none => return (descriptor, none)
  ensuring a do
    for (descriptor, was) in kept do
      match was with
      | some (file, own) =>
        point descriptor file
        release own
      | none => release descriptor

/-! ### opening files -/

def ownDescriptor? (path : String) : Option Nat :=
  match path with
  | "/dev/stdin" => some 0
  | "/dev/stdout" => some 1
  | "/dev/stderr" => some 2
  | path => ["/dev/fd/", "/proc/self/fd/"].findSome? fun folder =>
    if path.startsWith folder then (path.drop folder.length).toString.toNat? else none

/-- Whether a file that is there keeps what it holds when it is opened. -/
def Mode.keepsContents (mode : Mode) : Bool := mode ∈ [.read, .append, .appendBoth, .readWrite]

/-- Whether what is written comes after all that a file holds. -/
def Mode.appends (mode : Mode) : Bool := mode ∈ [.append, .appendBoth]

def channelAt (d : Directory) (mode : Mode) (path : String) : Except SystemFault Channel := do
  let p := Octets.path path
  if mode = .read then
    let target ← d.find p
    match ← d.node p with
    | .device kind => return .device kind
    | .file .. => return .file target.location false
    | .directory _ => return .directory target.location
  else
    let location ← d.writable p
    match d.tree.at? location with
    | some (.device kind) => return .device kind
    | _ => return .file location mode.appends

/-- What an open file, opened once more, reads and writes. -/
def reopened (mode : Mode) : Channel → Channel
  | .file location _ => .file location mode.appends
  | .outlet pipe => if mode = .read then .outlet pipe else .inlet pipe
  | .inlet pipe => if mode = .read then .outlet pipe else .inlet pipe
  | channel => channel

/-- What is opened at a path, which may name a descriptor of the process. -/
def channelFor (mode : Mode) (path : String) : Action (Except SystemFault Channel) := do
  match ownDescriptor? path with
  | some descriptor =>
    let s ← get
    match (s.world.descriptor? s.id descriptor).bind s.world.openFile? with
    | some file => return .ok (reopened mode file.channel)
    | none => return .error .notFound
  | none => return channelAt (← here) mode path

def openFile (mode : Mode) (path : String) : Action (Except SystemFault Nat) := do
  match ← channelFor mode path with
  | .error fault => return .error fault
  | .ok channel =>
    if let .file location _ := channel then
      let tree := (← get).world.tree
      let held := tree.at? location
      if held.isNone || !mode.keepsContents then setTree (tree.put location (.holding [] held))
    let (file, world) := (← get).world.openNew ⟨channel, 0, mode = .read || mode = .readWrite, mode != .read⟩
    modify fun s => { s with world }
    return .ok file

/-- The shell's words for a file that cannot be opened. -/
def openingFault (creates : Bool) (path : String) (fault : SystemFault) : String :=
  let words := match fault with
    | .notFound | .notDirectory => if creates then "Directory nonexistent" else "No such file"
    | fault => reason fault
  (if creates then "cannot create " else "cannot open ") ++ path ++ ": " ++ words

/-- A file is opened for a command. -/
def openTarget (mode : Mode) (path : String) : Action Nat := do
  let x ← current
  let isGuarded := mode == .write && x.has 'C'
  let node := (← here).node (Octets.path path)
  if isGuarded then
    if let .ok (.file ..) := node then blame ("cannot create " ++ path ++ ": File exists")
  match ← openFile mode path with
  | .ok file => return file
  | .error fault =>
    if x.isExtended then blame (path ++ ": " ++ reason fault)
    else blame (openingFault (mode != .read && !(isGuarded && node.toOption.isSome)) path fault)

/-! ### redirections -/

/-- What a redirection leads to. -/
inductive Goal where
  | file (mode : Mode) (path : String)
  | copy (descriptor : Nat)
  | nowhere
  | document (text : Word)
  deriving Inhabited

/-- What a redirection leads to, with its target worked out. -/
def goalOf (capture : Command → Action String) : Redirection → Action (Nat × Goal)
  | ⟨descriptor, .document, target⟩ => return (descriptor, .document target)
  | ⟨descriptor, .duplicate, target⟩ => do
    match ← fields capture target with
    | [] => blame "redir error"
    | word :: _ =>
      if word = "-" then return (descriptor, .nowhere)
      else
        match word.toList with
        | [c] => if c.isDigit then return (descriptor, .copy (c.toNat - '0'.toNat)) else refuse
        | _ => refuse
  | ⟨descriptor, mode, target⟩ => return (descriptor, .file mode (← single capture target))
where
  refuse {α : Type} : Action α := blame "Syntax error: Bad fd number"

def redirect (capture : Command → Action String) : Nat × Goal → Action Unit
  | (descriptor, .file mode path) => do
    let file ← openTarget mode path
    if mode = .writeBoth ∨ mode = .appendBoth then
      point 1 file
      point 2 file
    else point descriptor file
  | (descriptor, .copy other) => do
    if other ≠ descriptor then
      match (← ownProcess).descriptors.lookup other with
      | some file => point descriptor file
      | none => blame (toString other ++ ": Bad file descriptor")
  | (descriptor, .nowhere) => release descriptor
  | (descriptor, .document word) => do
    let text ← documentText capture word
    let (outlet, _, world) := (← get).world.openPipe (Octets.bytes text)
    modify fun s => { s with world }
    point descriptor outlet

def changedDescriptors (goals : List (Nat × Goal)) : List Nat :=
  goals.flatMap fun goal =>
    match goal.2 with
    | .file .writeBoth _ | .file .appendBoth _ => [1, 2]
    | _ => [goal.1]

/-- Descriptors are redirected; the answer says whether that worked. -/
def redirectSafely (capture : Command → Action String) (goals : List (Nat × Goal)) : Action Bool := do
  try
    goals.forM (redirect capture)
    return true
  catch interrupt => if interrupt == .fault then return false else throw interrupt

end Fleet.Shell
