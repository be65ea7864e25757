import Fleet.JobClass
import Fleet.Path

/-!
# Where logs go

The log of a job is the file `<id>.<hostname>.log` in the testbed's directory of the class's directory
below the root of the logs.  The testbed is named after its node file: the file's name up to the first
dot, or nothing if the path of the node file ends in no name.
-/

namespace Fleet

/-- The label of the testbed that a node file describes. -/
def testbedLabel (nodeFile : Path) : String :=
  match nodeFile.fileName? with
  | some name => String.ofList (name.toList.takeWhile (· != '.'))
  | none => ""

/-- The place of all logs of one run. -/
structure Logbook where
  root : Path
  testbed : String
  deriving DecidableEq

def Logbook.logPath (book : Logbook) (jobClass : JobClass) (id hostname : String) : Path :=
  ((book.root.child jobClass.text).child book.testbed).child (id ++ "." ++ hostname ++ ".log")

end Fleet
