import Fleet.Execution
import Fleet.Shell.Evaluation
import Fleet.Shell.Schedule

/-!
# A shell that runs jobs

The shell of a control machine, as far as jobs can tell it from a real one: it reads no input, and its output
goes to the end of the job's log.  It finds programs in the directories of its search path.
-/

namespace Fleet.Shell

/-- The number of the process that runs jobs. -/
def parentProcess : Nat := 100

/-- The permissions that new files do not get at first: those to write, but for the owner. -/
def standardMask : Nat := 18

/-- A world in which a process is about to run commands, with a log that its output goes to. -/
def startingWorld (id : Nat) (d : Directory) (log : Location) : World :=
  let channel : Channel :=
    match d.tree.at? log with
    | some (.device kind) => .device kind
    | _ => .file log false
  let process : Process :=
    { id, parent := parentProcess, location := d.location, descriptors := [(0, 0), (1, 1), (2, 1)]
      ignored := [], caught := [], pending := [], ending := none, endedAt := 0 }
  { tree := d.tree
    openFiles := #[⟨.device .null, 0, true, false⟩, ⟨channel, ((d.tree.file? log).getD []).length, false, true⟩]
    pipes := #[], looseFiles := #[], processes := [process], nextProcess := id + 1, clock := 0 }

/-- The session of a process that has run nothing, with the variables that it gets. -/
def emptySession (environment : List (String × String)) : Session :=
  { shellId := 0, name := "sh", arguments := []
    bindings := environment.map fun (name, value) => (name, ⟨some value, true, false⟩)
    functions := [], aliases := [], places := [], status := 0, outputStatus := 0, lastBackground := none, jobs := []
    flags := [], traps := [], finalStatus := none, loops := 0, scopes := [], nextOption := 1, optionOffset := none
    mask := standardMask, line := 0, commandName := none, outputFault := none, lastWords := none, backlog := none
    isExtended := false }

/-- A command is run by a shell with the given variables.  What it has left in the background goes on as far as it
does not wait for a later time. -/
def runner (environment : List (String × String)) : CommandRunner := fun d log command =>
  let id := parentProcess + 1
  let given := environment.map fun (name, value) => (Octets.encode name, Octets.encode value)
  let action := startShell runFuel false "sh" ["-c", Octets.encode command]
  let start : Thread := ⟨id, emptySession given, .time 0, action⟩
  let machine := (Machine.mk (startingWorld id d log) [start]).runUntil id runFuel
  let ending := ((machine.world.process? id).bind (·.ending)).getD (.exited 0)
  .ok (ending, (machine.runOut runFuel).world.tree)

/-! ### machines -/

/-- The directories of a machine on which no files are yet, with its programs in `/bin` and its devices. -/
def standardTree : FileTree :=
  let names := Tool.programs.map (·.1) ++ Tool.launchers.map (·.1) ++ shells.map (·.1)
  let programs := names.map fun name => (name, FileNode.file (Tool.image name) true)
  ⟨[("bin", .directory programs),
    ("dev", .directory [("full", .device .full), ("null", .device .null), ("zero", .device .zero)]),
    ("etc", .directory []), ("home", .directory []), ("root", .directory []), ("tmp", .directory []),
    ("usr", .directory [("bin", .directory programs)]), ("var", .directory [])]⟩

/-- The variables of a shell that also finds the programs in a directory, before all others. -/
def standardEnvironment (programs : String) : List (String × String) :=
  [("PATH", programs ++ ":" ++ standardPath), ("HOME", "/root")]

end Fleet.Shell
