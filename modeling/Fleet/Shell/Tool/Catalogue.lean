import Fleet.Shell.Builtin.Directory
import Fleet.Shell.Tool.Edit
import Fleet.Shell.Tool.Entry
import Fleet.Shell.Tool.Replace
import Fleet.Shell.Tool.Search
import Fleet.Shell.Tool.Start
import Fleet.Shell.Tool.Stream
import Fleet.Shell.Tool.Word

/-!
# The programs by their names

All programs of the machine besides its shells.
-/

namespace Fleet.Shell.Tool

def pwd : Program := fun _ _ => do say (locationText (← ownProcess).location ++ "\n")

/-- The name of the user is told. -/
def whoami : Program := fun name args => do
  if let extra :: _ := args then misuse name ("extra operand " ++ quoted extra) 1
  say "root\n"

def identity : Program := fun name args => do
  let x ← (options "aGgnru" []).of name args
  let kind := x.last? ['u', 'g', 'G']
  say (match kind with
    | some _ => if x.has 'n' then "root\n" else "0\n"
    | none => "uid=0(root) gid=0(root) groups=0(root)\n")

def uname : Program := fun name args => do
  let x ← (options "asnrvmpio" []).of name args
  let parts := [('s', "Linux"), ('m', "x86_64"), ('o', "GNU/Linux")].filter fun (c, _) => x.has c
  say (String.intercalate " " (if parts.isEmpty then ["Linux"] else parts.map (·.2)) ++ "\n")

def which : Program := fun _ args => do
  let d ← here
  let path ← searchPath
  for word in args.filter (!·.startsWith "-") do
    let found := if '/' ∈ word.toList then (program? d word).map fun _ => word
      else firstProgram d (candidates path word) .notFound
    match found with
    | .ok place => say (place ++ "\n")
    | .error _ => finish 1

def programs : List (String × Program) :=
  [("[", bracket), ("basename", basename), ("cat", cat), ("chmod", chmod), ("comm", comm), ("cp", cp), ("cut", cut),
    ("dirname", dirname), ("echo", echo), ("egrep", egrep), ("expr", expr), ("false", fun _ _ => finish 1),
    ("fgrep", fgrep), ("fold", fold), ("grep", grep), ("head", head), ("id", identity), ("ln", ln), ("ls", ls),
    ("mkdir", mkdir), ("mv", mv), ("nl", nl), ("paste", paste), ("printenv", printenv), ("printf", printf),
    ("pwd", pwd), ("rev", rev), ("rm", rm), ("rmdir", rmdir), ("sed", sed), ("seq", seq), ("sleep", sleep), ("sort", sort),
    ("sync", fun _ _ => pure ()), ("tac", tac), ("tail", tail), ("tee", tee), ("test", test), ("touch", touch),
    ("tr", tr), ("true", fun _ _ => pure ()), ("uname", uname), ("uniq", uniq), ("wc", wc), ("which", which),
    ("whoami", whoami), ("yes", yes)]

def launchers : List (String × (Starter → Program)) :=
  [("env", env), ("find", find), ("nice", nice), ("nohup", nohup), ("timeout", timeout), ("xargs", xargs)]

end Fleet.Shell.Tool
