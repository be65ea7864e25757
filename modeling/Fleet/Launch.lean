import Fleet.Config
import Fleet.Notice
import Fleet.Phase

/-!
# Launching an experiment

What an experiment's configuration comes to once everything it needs is there, and the command line each
host gets: the arguments, the host's own id and position, and the ids of all other hosts.
-/

namespace Fleet

open Yaml (Value)

/-- A leader: the host that goes first, and its command. -/
structure Leader where
  id : String
  command : String
  deriving DecidableEq, Inhabited

/-- An experiment with everything it needs. -/
structure Launch where
  experiment : String
  binary : String
  args : List (String × String)
  leader : Option Leader
  leaderArgs : List (String × String)
  outfile : Option String
  asRoot : Bool
  barrier : Barrier
  deriving DecidableEq

/-- How the user wants an experiment to be launched. -/
structure LaunchOptions where
  /-- a program instead of the configured one -/
  bin : Option String
  /-- a file for the output on each host -/
  outfile : Option String
  asRoot : Bool
  deriving DecidableEq, Inhabited

namespace Launch

/-! ### from a configuration -/

/-- The name and the value of an argument as texts. -/
def flag (experiment : String) (entry : Value × Value) : Except RequestFault (String × String) :=
  match entry.1.scalarText?, entry.2.scalarText? with
  | none, _ => .error (.argumentName experiment)
  | some key, none => .error (.argumentValue key experiment)
  | some key, some value => .ok (key, value)

/-- The names and values of arguments as texts. -/
def flags (experiment : String) : List (Value × Value) → Except Fault (List (String × String))
  | [] => .ok []
  | entry :: rest =>
    match flag experiment entry with
    | .error reason => .error (.invalidRequest reason)
    | .ok f =>
      match flags experiment rest with
      | .ok fs => .ok (f :: fs)
      | .error fault => .error fault

def part (experiment name : String) : Option String → Except Fault String
  | some text => .ok text
  | none => .error (Config.missing experiment (some name))

/-- The leader of an experiment, if both its id and its command are configured. -/
def leaderOf (e : Experiment) : Option Leader :=
  match e.leader, e.leaderCommand with
  | some id, some command => some ⟨id, command⟩
  | _, _ => none

def barrierOf (e : Experiment) : Barrier :=
  ⟨e.leaderDelay.getD Config.defaultLeaderDelay, e.leaderPort⟩

/-- What the launch of an experiment comes to. -/
def resolve (c : Config) (name : String) (options : LaunchOptions) : Except Fault Launch := do
  let e ← c.experiment name
  let directory ← part name "bin_dir" e.binDirectory
  let bin ← part name "bin" (options.bin <|> e.bin)
  let args ← flags name (e.args.getD .empty).entries
  let leaderArgs ← flags name e.leaderArgs.entries
  pure {
    experiment := name
    binary := ((Path.mk directory).child bin).text
    args, leaderArgs
    leader := leaderOf e
    outfile := options.outfile
    asRoot := options.asRoot
    barrier := barrierOf e }

/-- What is told when an experiment is resolved: that it has no arguments. -/
def notices (c : Config) (name : String) : List Notice :=
  match c.experiments.get? name with
  | some e => if e.args.isNone then [.noDefaultArguments name] else []
  | none => []

def isLeader (l : Launch) (id : String) : Bool :=
  l.leader.any (·.id == id)

/-! ### the command line -/

def flagText (f : String × String) : String := "--" ++ f.1 ++ "=" ++ f.2

def peers (active : List Host) (id : String) : List String :=
  (active.filter (·.id != id)).map (·.id)

/-- The arguments on a host's command line. -/
def hostFlags (l : Launch) (active : List Host) (id : String) (position : Nat) (asLeader : Bool) :
    List String :=
  l.args.map flagText ++
    ["--hostname=" ++ id, "--host_id=" ++ toString position,
      "--remotes=" ++ String.intercalate "," (peers active id)] ++
    if asLeader then l.leaderArgs.map flagText else []

def command (l : Launch) (active : List Host) (id : String) (position : Nat) (asLeader : Bool) : String :=
  (if l.asRoot then "sudo " else "") ++ l.binary ++ " " ++
    String.intercalate " " (l.hostFlags active id position asLeader) ++
    match l.outfile with
    | some file => " &>" ++ file
    | none => ""

end Launch

end Fleet
