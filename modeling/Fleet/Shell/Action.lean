import Fleet.Shell.Octets
import Fleet.Shell.Session
import Fleet.Shell.World

/-!
# Actions

What a process does is an action: it changes the session of the process and the world, it can be interrupted, and
it can pause until something has happened.  A process can also fork; then the action goes on twice, in the process
and in its child.  The course of an action leads to its end, to a pause or to a fork, and a pause and a fork hold
what comes after them.
-/

namespace Fleet.Shell

open Text (Bytes)

/-- Why an action is not gone on with. -/
inductive Interrupt where
  /-- the process ends with its status -/
  | exit
  /-- the process has ended -/
  | gone
  /-- something was wrong, which ends the shell if nothing prevents that -/
  | fault
  | leaveLoop (loops : Nat)
  | nextRound (loops : Nat)
  /-- the function is left, with a status that was given or with that of the last command -/
  | leaveFunction (isGiven : Bool)
  deriving DecidableEq, Inhabited

/-- What a pause waits for. -/
inductive Wait where
  | time (clock : Nat)
  /-- an open file has something to be read, or ends -/
  | input (file : Nat)
  /-- an open file takes something, or nobody reads it any more -/
  | room (file : Nat)
  /-- processes have ended -/
  | ended (processes : List Nat)
  /-- one of some processes has ended, or a signal is to be answered -/
  | news (processes : List Nat)
  /-- processes have ended, or a moment has come -/
  | endedBy (processes : List Nat) (clock : Nat)
  deriving Inhabited

/-- Whether what a process waits for has happened. -/
def Wait.isOver (w : World) (id : Nat) : Wait → Bool
  | .time clock => clock ≤ w.clock
  | .input file => w.isEndless file || !(w.available file).isEmpty || !w.isFed file
  | .room file => w.room file != some 0 || !w.isHeard file
  | .ended processes => processes.all (!w.isRunning ·)
  | .endedBy processes clock => processes.all (!w.isRunning ·) || clock ≤ w.clock
  | .news processes =>
    processes.any (!w.isRunning ·) || processes.isEmpty || (w.process? id).any (!·.pending.isEmpty)

/-- A process with all that it can see. -/
structure State where
  id : Nat
  session : Session
  world : World
  deriving Inhabited

/-- How an action goes: it has ended, it pauses, or it forks.  What comes after a fork is told the number of
the child, or nothing in the child. -/
inductive Course (α : Type) where
  | done (result : Except Interrupt α) (state : State)
  | paused (wait : Wait) (state : State) (next : State → Course α)
  | forked (child : Nat) (state : State) (next : Option Nat → State → Course α)

namespace Course

/-- What comes after a course that has ended. -/
def bind {α β : Type} (f : α → State → Course β) : Course α → Course β
  | .done (.ok a) s => f a s
  | .done (.error interrupt) s => .done (.error interrupt) s
  | .paused wait s next => .paused wait s fun s => (next s).bind f
  | .forked child s next => .forked child s fun id s => (next id s).bind f

def handle {α : Type} (f : Interrupt → State → Course α) : Course α → Course α
  | .done (.ok a) s => .done (.ok a) s
  | .done (.error interrupt) s => f interrupt s
  | .paused wait s next => .paused wait s fun s => (next s).handle f
  | .forked child s next => .forked child s fun id s => (next id s).handle f

end Course

def Action (α : Type) : Type := State → Course α

namespace Action

instance : Monad Action where
  pure a := fun s => .done (.ok a) s
  bind x f := fun s => (x s).bind f

instance : MonadStateOf State Action where
  get := fun s => .done (.ok s) s
  set s := fun _ => .done (.ok ()) s
  modifyGet f := fun s =>
    let (a, s) := f s
    .done (.ok a) s

instance : MonadExceptOf Interrupt Action where
  throw interrupt := fun s => .done (.error interrupt) s
  tryCatch x f := fun s => (x s).handle f

instance {α : Type} : Inhabited (Action α) := ⟨throw .exit⟩

end Action

/-! ### processes -/

def pause (wait : Wait) : Action Unit := fun s => .paused wait s fun s => .done (.ok ()) s

def elapse (duration : Nat) : Action Unit := do pause (.time ((← get).world.clock + duration))

/-- The process forks.  The answer is the number of the child, or nothing in the child. -/
def fork : Action (Option Nat) := fun s =>
  let (child, world) := s.world.fork s.id
  .forked child { s with world } fun id s => .done (.ok id) s

def current : Action Session := return (← get).session

def change (f : Session → Session) : Action Unit := modify fun s => { s with session := f s.session }

def alter (f : World → World) : Action Unit := modify fun s => { s with world := f s.world }

def ownProcess : Action Process := do
  let s ← get
  return (s.world.process? s.id).getD default

/-- The process changes, as others know it. -/
def alterOwn (f : Process → Process) : Action Unit := modify fun s => { s with world := s.world.update s.id f }

def finish (status : Nat) : Action Unit := change fun x => { x with status }

def quit {α : Type} (status : Nat) : Action α := do
  finish status
  throw .exit

/-- An action after which another one follows, unless the process has ended. -/
def ensuring {α : Type} (a : Action α) (last : Action Unit) : Action α := do
  let result ← try a catch interrupt => do
    if interrupt != .gone then last
    throw interrupt
  last
  return result

/-- The directory in which the process works. -/
def here : Action Directory := do return ⟨(← get).world.tree, (← ownProcess).location⟩

def setTree (tree : FileTree) : Action Unit := alter fun w => { w with tree }

def signal (process number : Nat) : Action Unit := do
  alter (·.signal process number)
  let s ← get
  if !s.world.isRunning s.id then throw .gone

/-! ### words of the system -/

def reason : SystemFault → String
  | .notFound => "No such file or directory"
  | .alreadyExists => "File exists"
  | .notDirectory => "Not a directory"
  | .isDirectory => "Is a directory"
  | .nameTooLong => "File name too long"
  | .noSpace => "No space left on device"
  | fault => fault.message

/-- The fault that something must not be done. -/
def permissionDenied : SystemFault := .described "Permission denied"

def locationText (l : Location) : String := Octets.encode ("/" ++ String.intercalate "/" l)

/-! ### output -/

/-- Why something cannot be written. -/
inductive Refusal where
  | badDescriptor
  | noSpace
  | brokenPipe
  deriving DecidableEq, Inhabited

/-- The system's words for why something cannot be written. -/
def Refusal.message : Refusal → String
  | .badDescriptor => "Bad file descriptor"
  | .noSpace => "No space left on device"
  | .brokenPipe => "Broken pipe"

/-- Bytes are written to an open file, as soon as there is room for them. -/
def deposit (file : Nat) : Nat → Bytes → Action (Option Refusal)
  | 0, _ => return none
  | n + 1, bytes => do
    let w := (← get).world
    if bytes.isEmpty then return none
    else if !w.isHeard file then
      signal (← get).id Signal.brokenPipe
      return some .brokenPipe
    else
      match w.room file with
      | none =>
        match (w.openFile? file).map OpenFile.channel with
        | some (.device .full) => return some .noSpace
        | _ =>
          alter (·.write file bytes)
          return none
      | some room =>
        alter (·.write file (bytes.take room))
        let rest := bytes.drop room
        if rest.isEmpty then return none
        else
          pause (.room file)
          deposit file n rest

def put (descriptor : Nat) (bytes : Bytes) : Action (Option Refusal) := do
  if bytes.isEmpty then return none
  let s ← get
  match s.world.descriptor? s.id descriptor with
  | none => return some .badDescriptor
  | some file =>
    if (s.world.openFile? file).any (·.isWritten) then deposit file (2 * bytes.length + 2) bytes
    else return some .badDescriptor

/-- Bytes are written to the output.  It is remembered if they cannot be. -/
def write (bytes : Bytes) : Action Unit := do
  if let some refusal ← put 1 bytes then change fun x => { x with outputFault := some refusal.message }

/-- How many bytes a program that does not write at once puts out before it writes. -/
def backlogSize : Nat := 4096

/-- Bytes are put out: they are written at once, or in whole blocks when there are enough of them. -/
def emit (bytes : Bytes) : Action Unit := do
  match (← current).backlog with
  | none => write bytes
  | some before =>
    let all := before.add bytes
    if all.size ≤ backlogSize then change fun x => { x with backlog := some all }
    else
      let count := all.size - all.size % backlogSize
      let whole := all.bytes
      change fun x => { x with backlog := some (Backlog.empty.add (whole.drop count)) }
      write (whole.take count)

/-- What has been put out is written. -/
def flush : Action Unit := do
  if let some before := (← current).backlog then
    change fun x => { x with backlog := some .empty }
    write before.bytes

/-- What is put out from now on is written at once, or not. -/
def holdBack (isHeld : Bool) : Action Unit :=
  change fun x => { x with backlog := if isHeld then some .empty else none }

def say (text : String) : Action Unit := emit (Octets.bytes text)

/-- A text is written as it is, after all that has been put out before. -/
def murmur (text : String) : Action Unit := do
  flush
  let _ ← put 2 (Octets.bytes text)

def warn (text : String) : Action Unit := murmur (text ++ "\n")

/-- A message of the shell is written, with its name, the line and the builtin. -/
def complain (text : String) : Action Unit := do
  let x ← current
  let place := if x.isExtended then ": line " ++ toString x.line else ": " ++ toString x.line
  let builtin := match x.commandName with
    | some name => name ++ ": "
    | none => ""
  warn (x.name ++ place ++ ": " ++ builtin ++ text)

def blame {α : Type} (text : String) : Action α := do
  complain text
  finish 2
  throw .fault

/-! ### input -/

def patience : Nat := 1 <<< 40

/-- At most so many bytes are read from an open file; none at its end. -/
def collect (file limit : Nat) : Action Bytes := do
  if !(Wait.input file).isOver (← get).world (← get).id then pause (.input file)
  modifyGet fun s =>
    let (bytes, world) := s.world.read file limit
    (bytes, { s with world })

/-- The open file that a descriptor can be read from. -/
def source? (descriptor : Nat) : Action (Option Nat) := do
  let s ← get
  return (s.world.descriptor? s.id descriptor).filter fun file => (s.world.openFile? file).any (·.isRead)

/-- How many bytes are read at once. -/
def blockSize : Nat := 65536

/-- All that is left is read from an open file, after what has been read. -/
def collectAll (file : Nat) : Nat → Bytes → Action Bytes
  | 0, before => return before
  | n + 1, before => do
    let bytes ← collect file blockSize
    if bytes.isEmpty then return before else collectAll file n (before ++ bytes)

/-- A line is read from an open file, with its newline if it has one, after what has been read. -/
def collectLine (file : Nat) : Nat → Bytes → Action Bytes
  | 0, before => return before
  | n + 1, before => do
    if !(Wait.input file).isOver (← get).world (← get).id then pause (.input file)
    let waiting := (← get).world.available file
    if waiting.isEmpty then return before
    let start := waiting.takeWhile (· ≠ 10)
    let isComplete := decide (start.length < waiting.length)
    let line := if isComplete then start ++ [10] else start
    alter (·.take file line.length)
    if isComplete then return before ++ line else collectLine file n (before ++ line)

end Fleet.Shell
