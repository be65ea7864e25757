import Fleet.Config.Read
import Fleet.Execution
import Fleet.FanOut.Executor
import Fleet.Plan

/-!
# Rollouts

A rollout loads a configuration and a node file, plans what is requested and carries the plan out on a machine.
Executions there take no time of their own; time goes by while the dispatcher waits at a barrier.  A rollout that is to
wait for a port which never opens does not end, and nothing is left of it.
-/

namespace Fleet

/-- What a rollout takes from outside. -/
structure Setup where
  system : System
  /-- when a port of a host begins to accept connections, in milliseconds; none if it never does -/
  opens : String → UInt16 → Option Nat
  /-- the decoder's words for a text that is no configuration -/
  explain : String → String
  /-- the time stamp of the planning -/
  stamp : String
  /-- the texts of times -/
  clock : Nat → String

/-- A machine: its files, and the jobs that it has been given to execute, in this order. -/
structure Machine where
  directory : Directory
  executed : List Job

/-- What is left when a rollout is over. -/
structure Rollout where
  machine : Machine
  result : Except Fault RunReport
  notices : List Notice

namespace Rollout

def load (explain : String → String) (d : Directory) (p : Path) : Except Fault Config :=
  match d.readText p with
  | .ok text => Config.parse explain p text
  | .error fault => .error (.system fault)

def nodes (d : Directory) (p : Path) : Except Fault (List NodeEntry) :=
  match d.readText p with
  | .ok text => NodeFile.parse p text
  | .error fault => .error (.system fault)

/-- The plan of a request, made at a time stamp, with the node file from the directory. -/
def plan (c : Config) (r : Request) (stamp : String) (d : Directory) : Except Fault Plan :=
  Plan.make c r (d.readText r.nodeFile) stamp

def executor (s : Setup) (c : Config) : FanOut.Executor Machine where
  begin := fun _ _ job m => { m with executed := m.executed ++ [job] }
  poll := fun _ _ job m =>
    let e := Execution.execute s.system c job m.directory
    some (.answered e.answer, { m with directory := e.directory })
  accepts := fun now hostname port _ => (s.opens hostname port).any (· ≤ now)
  wake := fun _ _ => none

/-- When the port that a phase waits for begins to accept connections; a phase without one need not wait. -/
def opening? (s : Setup) (p : Phase) : Option Nat :=
  match p.leader with
  | some step =>
    match step.barrier.port with
    | some port => s.opens step.job.host.hostname port
    | none => some 0
  | none => some 0

/-- More moves than the fanning out of phases needs, if each port that is waited for opens. -/
def moves? (s : Setup) : List Phase → Option Nat
  | [] => some 0
  | p :: rest => do
    let opening ← opening? s p
    let n ← moves? s rest
    some (4 * p.jobs.length + 2 * (opening / FanOut.probeInterval) + 16 + n)

/-- The rollout that ends with a fault, before anything is executed. -/
def refused (d : Directory) (fault : Fault) : Rollout := ⟨⟨d, []⟩, .error fault, []⟩

def ofPlan (s : Setup) (p : Plan) (d : Directory) : Option Rollout :=
  (moves? s p.phases).map fun fuel =>
    let (run, m) := (executor s p.config).carryOut fuel (.initial p.phases) ⟨d, []⟩
    ⟨m, .ok (run.report p.testbed), p.notices ++ run.notices⟩

/-- A request is planned, and the plan carried out. -/
def run (s : Setup) (c : Config) (r : Request) (d : Directory) : Option Rollout :=
  match plan c r s.stamp d with
  | .ok p => ofPlan s p d
  | .error fault => some (refused d fault)

end Rollout

end Fleet
