import Fleet.CommandLine.Answer
import Fleet.Shell
import Std.Time.Format
import Std.Time.Zoned

/-!
# The program

The program reads the configuration and the node file, carries the run out with the shell of this library, writes
the logs and whatever else the run has left, and prints the report.  It reaches no ports, so it goes on waiting for
ever where a run waits for one.
-/

namespace Fleet.Main

/-- A time as the reports tell it. -/
def timeText (t : Std.Time.DateTime) : String := t.format "uuuu-MM-dd" ++ "T" ++ t.format "HH:mm:ss.SSSXXX"

/-- The names on the way to a directory. -/
def locationOf (directory : String) : Location :=
  ((directory.toList.splitOn '/').filter (· ≠ [])).map String.ofList

/-- The place of a location among the files of the system. -/
def pathText (l : Location) : String := Shell.Octets.decode (Shell.locationText l)

/-- The files that a command line names, in a model of the working directory. -/
def loaded (directory : String) (words : List String) : IO Directory := do
  let location := locationOf directory
  let start : Directory := ⟨Shell.standardTree.plant location (.directory []), location⟩
  match CommandLine.parse words with
  | .error _ => return start
  | .ok c =>
    [c.configFile, c.request.nodeFile].foldlM (fun d path => do
      match d.find path with
      | .error _ => return d
      | .ok target =>
        try
          let bytes ← IO.FS.readBinFile (pathText target.location)
          return { d with tree := d.tree.plant target.location (.file bytes.data.toList false) }
        catch _ => return d) start

/-- The changes of a run are made to the files of the system. -/
def store (before after : FileTree) : IO Unit := do
  for (location, node) in before.changes after do
    match node with
    | .directory _ => IO.FS.createDirAll (pathText location)
    | .file bytes _ => IO.FS.writeBinFile (pathText location) ⟨bytes.toArray⟩
    | .device _ => pure ()

end Fleet.Main

def main (words : List String) : IO UInt32 := do
  let directory := (← IO.currentDir).toString
  let before ← Fleet.Main.loaded directory words
  let now ← Std.Time.DateTime.now
  let setup : Fleet.Setup :=
    { system := .ofRunner (Fleet.Shell.runner (Fleet.Shell.standardEnvironment (directory ++ "/bin")))
      opens := fun _ _ => none
      explain := fun _ => "not a configuration"
      stamp := now.format "uuuuMMddHHmmss"
      clock := fun ms => Fleet.Main.timeText (now.addMilliseconds (.ofNat ms)) }
  match Fleet.CommandLine.answer setup words before with
  | none =>
    while true do IO.sleep 1000
    return 1
  | some (reply, machine) =>
    Fleet.Main.store before.tree machine.directory.tree
    for notice in reply.notices do
      IO.eprintln notice.line
    IO.print reply.output
    if let some message := reply.message then IO.eprintln message
    return .ofNat reply.exitCode
