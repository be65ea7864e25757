import Fleet.FileTree.Walk
import Fleet.Job
import Fleet.Shell.Signal

/-!
# What processes share

Processes share the file tree, the open files, the pipes and the time.  An open file has an offset that all
processes which use it move on: what they put out one after the other stands one after the other.  A process is
known by its number; one that has ended is kept until its parent has asked how.
-/

namespace Fleet.Shell

open Text (Bytes)

/-- What an open file reads and writes. -/
inductive Channel where
  | device (kind : Device)
  | file (location : Location) (appends : Bool)
  /-- a file that is in no directory any more -/
  | loose (file : Nat)
  | directory (location : Location)
  /-- the end of a pipe that is read -/
  | outlet (pipe : Nat)
  /-- the end of a pipe that is written to -/
  | inlet (pipe : Nat)
  deriving DecidableEq, Inhabited

/-- An open file. -/
structure OpenFile where
  channel : Channel
  offset : Nat
  isRead : Bool
  isWritten : Bool
  deriving Inhabited

/-- A process, as the others know it. -/
structure Process where
  id : Nat
  parent : Nat
  /-- the working directory -/
  location : Location
  /-- the descriptors, each with the open file it leads to -/
  descriptors : List (Nat × Nat)
  /-- the signals that it does not hear -/
  ignored : List Nat
  /-- the signals that it has an answer to -/
  caught : List Nat
  /-- the signals that it has to answer -/
  pending : List Nat
  /-- how it has ended -/
  ending : Option ExitStatus
  /-- when it has ended -/
  endedAt : Nat
  deriving Inhabited

/-- What processes share. -/
structure World where
  tree : FileTree
  /-- the open files, named by their positions -/
  openFiles : Array OpenFile
  /-- what waits in each pipe -/
  pipes : Array Bytes
  /-- what is in the files that are in no directory any more -/
  looseFiles : Array Bytes
  processes : List Process
  nextProcess : Nat
  /-- the time in microseconds -/
  clock : Nat
  deriving Inhabited

namespace World

/-! ### processes -/

def process? (w : World) (id : Nat) : Option Process := w.processes.find? (·.id == id)

def update (w : World) (id : Nat) (f : Process → Process) : World :=
  { w with processes := w.processes.map fun p => if p.id = id then f p else p }

def isRunning (w : World) (id : Nat) : Bool := (w.process? id).any (·.ending.isNone)

/-- A new process that shares the open files of its parent, with its number. -/
def fork (w : World) (parent : Nat) : Nat × World :=
  let id := w.nextProcess
  let child := match w.process? parent with
    | some p => { p with id, parent, pending := [], ending := none }
    | none => ⟨id, parent, [], [], [], [], [], none, 0⟩
  (id, { w with processes := child :: w.processes, nextProcess := id + 1 })

/-- The process that takes care of those whose parents have ended. -/
def firstProcess : Nat := 1

/-- A process ends, unless it has ended before: it closes its files.  Its children are left to the first process,
which forgets those that have ended. -/
def finish (w : World) (id : Nat) (ending : ExitStatus) : World :=
  let settled := fun (p : Process) =>
    if p.id = id ∧ p.ending.isNone then
      { p with descriptors := [], pending := [], ending := some ending, endedAt := w.clock }
    else if p.parent = id then { p with parent := firstProcess }
    else p
  { w with processes := (w.processes.map settled).filter fun p => p.ending.isNone || p.parent != firstProcess }

/-- A process that has ended is forgotten. -/
def reap (w : World) (id : Nat) : World := { w with processes := w.processes.filter (·.id ≠ id) }

def signal (w : World) (id number : Nat) : World :=
  match w.process? id with
  | none => w
  | some p =>
    if p.ending.isSome then w
    else if Signal.isSovereign number then
      if Signal.isHarmless number then w else w.finish id (.killed number)
    else if number ∈ p.ignored then w
    else if number ∈ p.caught then
      w.update id fun p => if number ∈ p.pending then p else { p with pending := p.pending ++ [number] }
    else if Signal.isHarmless number then w
    else w.finish id (.killed number)

/-! ### open files -/

def openFile? (w : World) (file : Nat) : Option OpenFile := w.openFiles[file]?

def openNew (w : World) (file : OpenFile) : Nat × World :=
  (w.openFiles.size, { w with openFiles := w.openFiles.push file })

/-- A new pipe, with the names of its two ends: that which is read and that which is written to. -/
def openPipe (w : World) (waiting : Bytes) : Nat × Nat × World :=
  let pipe := w.pipes.size
  let w := { w with pipes := w.pipes.push waiting }
  let (outlet, w) := w.openNew ⟨.outlet pipe, 0, true, false⟩
  let (inlet, w) := w.openNew ⟨.inlet pipe, 0, false, true⟩
  (outlet, inlet, w)

/-- The open file that a descriptor of a process leads to. -/
def descriptor? (w : World) (id descriptor : Nat) : Option Nat :=
  (w.process? id).bind (·.descriptors.lookup descriptor)

/-- Whether a process has a descriptor for a channel. -/
def isHeld (w : World) (channel : Channel) : Bool :=
  w.processes.any fun p =>
    p.descriptors.any fun d => (w.openFile? d.2).any fun file => decide (file.channel = channel)

/-- The greatest number of bytes that wait in a pipe. -/
def capacity : Nat := 65536

/-- How many bytes can be written to an open file at once. -/
def room (w : World) (file : Nat) : Option Nat :=
  match (w.openFile? file).map OpenFile.channel with
  | some (.inlet pipe) => some (capacity - (w.pipes.getD pipe []).length)
  | _ => none

/-- Whether what is written to an open file can be read by someone. -/
def isHeard (w : World) (file : Nat) : Bool :=
  match (w.openFile? file).map OpenFile.channel with
  | some (.inlet pipe) => w.isHeld (.outlet pipe)
  | _ => true

/-- Whether something may still come from an open file that has nothing now. -/
def isFed (w : World) (file : Nat) : Bool :=
  match (w.openFile? file).map OpenFile.channel with
  | some (.outlet pipe) => w.isHeld (.inlet pipe)
  | _ => false

/-- Bytes with others over them from an offset on; a gap before them is filled with zeros. -/
def overlay (old : Bytes) (offset : Nat) (new : Bytes) : Bytes :=
  if offset = old.length then old ++ new
  else old.take offset ++ List.replicate (offset - old.length) 0 ++ new ++ old.drop (offset + new.length)

def write (w : World) (file : Nat) (bytes : Bytes) : World :=
  match w.openFile? file with
  | none => w
  | some f =>
    let moved := fun (offset : Nat) => w.openFiles.setIfInBounds file { f with offset }
    match f.channel with
    | .device _ | .outlet _ | .directory _ => w
    | .inlet pipe => { w with pipes := w.pipes.setIfInBounds pipe ((w.pipes.getD pipe []) ++ bytes) }
    | .loose number =>
      let old := w.looseFiles.getD number []
      { w with
        looseFiles := w.looseFiles.setIfInBounds number (overlay old f.offset bytes)
        openFiles := moved (f.offset + bytes.length) }
    | .file location appends =>
      let old := (w.tree.file? location).getD []
      let offset := if appends then old.length else f.offset
      { w with
        tree := w.tree.put location (.holding (overlay old offset bytes) (w.tree.at? location))
        openFiles := moved (offset + bytes.length) }

/-- What can be read from an open file now, as far as it ends. -/
def available (w : World) (file : Nat) : Bytes :=
  match w.openFile? file with
  | none => []
  | some f =>
    match f.channel with
    | .device _ | .inlet _ | .directory _ => []
    | .outlet pipe => w.pipes.getD pipe []
    | .loose number => (w.looseFiles.getD number []).drop f.offset
    | .file location _ => ((w.tree.file? location).getD []).drop f.offset

/-- So many bytes are taken from an open file. -/
def take (w : World) (file count : Nat) : World :=
  match w.openFile? file with
  | none => w
  | some f =>
    match f.channel with
    | .device _ | .inlet _ | .directory _ => w
    | .outlet pipe => { w with pipes := w.pipes.setIfInBounds pipe ((w.pipes.getD pipe []).drop count) }
    | .file .. | .loose _ =>
      { w with openFiles := w.openFiles.setIfInBounds file { f with offset := f.offset + count } }

/-- Whether an open file gives zeros without end. -/
def isEndless (w : World) (file : Nat) : Bool :=
  match (w.openFile? file).map OpenFile.channel with
  | some (.device .zero) | some (.device .full) => true
  | _ => false

/-- At most so many bytes are read from an open file. -/
def read (w : World) (file limit : Nat) : Bytes × World :=
  if w.isEndless file then (List.replicate limit 0, w)
  else
    let bytes := (w.available file).take limit
    (bytes, w.take file bytes.length)

/-! ### files that move -/

/-- The location of the file that an open file reads and writes. -/
def location? (w : World) (file : Nat) : Option Location :=
  match (w.openFile? file).map OpenFile.channel with
  | some (.file location _) => some location
  | _ => none

/-- The open files at or below a location lead to the same places below another one. -/
def rename (w : World) (old new : Location) : World :=
  { w with
    openFiles := w.openFiles.map fun f =>
      match f.channel with
      | .file location appends =>
        if old.isPrefixOf location then { f with channel := .file (new ++ location.drop old.length) appends } else f
      | _ => f }

def isOpenAt (location : Location) (f : OpenFile) : Bool :=
  match f.channel with
  | .file place _ => decide (place = location)
  | _ => false

/-- The open files at a location keep what the file there holds, and lose their place. -/
def detach (w : World) (location : Location) : World :=
  if w.openFiles.any (isOpenAt location) then
    { w with
      looseFiles := w.looseFiles.push ((w.tree.file? location).getD [])
      openFiles := w.openFiles.map fun f =>
        if isOpenAt location f then { f with channel := .loose w.looseFiles.size } else f }
  else w

def remove (w : World) (location : Location) : World :=
  let places := location :: (w.tree.below location).map fun entry => location ++ entry.1
  let w := places.foldl detach w
  { w with tree := w.tree.erase location }

/-- What is at a location is moved to another one, over what is there. -/
def move (w : World) (old new : Location) : World :=
  match w.tree.at? old with
  | some node =>
    let w := (w.detach new).rename old new
    { w with tree := (w.tree.erase old).put new node }
  | none => w

end World

end Fleet.Shell
