import Fleet.FanOut.Executor
import Fleet.Text.Lines

/-!
# Rehearsals

A rehearsal runs phases against scripted jobs, in a time of its own.  The command of a job says what its
execution does: it ends in a given way at once, sleeps, meets others in a group, waits for another job, or
uses a port.  The rehearsal keeps the order in which jobs began and ended.

Rehearsals are for trying the dispatcher out, by an executor whose answers can be written down.  No program runs them
and no theorem is about them: what holds of every run holds of rehearsals too.
-/

namespace Fleet

/-- What a scripted execution does.  Other jobs are named by the text of their class and the id of their host. -/
inductive Script where
  | ends (ending : FanOut.Ending)
  | sleep (ms : Nat)
  /-- enter a group, and wait until so many have -/
  | meet (group : String) (count : Nat)
  /-- wait until another job has ended -/
  | after (key : String)
  /-- fail if another job has begun -/
  | notStarted (key : String)
  /-- open the port after a while -/
  | listen
  /-- fail unless the port accepts connections -/
  | needPort

namespace Script

open FanOut (Ending)

def success : Ending := .answered (.ok .succeeded)

/-- The end of an execution that fails with an exit code. -/
def failure (exitCode : Int) : Ending := .answered (.ok (.failed (some exitCode)))

def parse (command : String) : Script :=
  let (verb, rest) := (Text.splitOnce? ' ' command).getD (command, "")
  match verb with
  | "ok" => .ends success
  | "exit" => .ends (failure (rest.toInt?.getD 0))
  | "io" => .ends (.answered (.error (.system (.described rest))))
  | "reject" => .ends (.answered (.error (.invalidRequest (.described rest))))
  | "panic" => .ends .died
  | "sleep" => .sleep (rest.toNat?.getD 0)
  | "meet" =>
    let (group, count) := (Text.splitOnce? ' ' rest).getD (rest, "")
    .meet group (count.toNat?.getD 0)
  | "after" => .after rest
  | "notstarted" => .notStarted rest
  | "listen" => .listen
  | "needport" => .needPort
  | _ => .ends (.answered (.ok (.failed none)))

/-- How long an execution waits for others, in milliseconds. -/
def patience : Nat := 3000

/-- How long an execution waits before it opens the port, in milliseconds. -/
def listenDelay : Nat := 20

end Script

/-- An execution that has begun. -/
structure Performance where
  slot : FanOut.Slot
  start : Nat
  script : Script
  /-- whether the other job that the script names had begun before -/
  wasStarted : Bool

/-- What a rehearsal keeps. -/
structure Rehearsal where
  /-- the executions, the last one to begin first -/
  performances : List Performance
  /-- the groups that executions have entered, once for each -/
  entered : List String
  /-- when the port is open -/
  opened : Option Nat
  /-- the jobs that began and ended, in this order; `true` stands for the end -/
  journal : List (String × Bool)
  /-- the jobs that began, with their commands -/
  calls : List String

namespace Rehearsal

open FanOut (Ending Executor Slot)

def key (job : Job) : String := job.jobClass.text ++ ":" ++ job.host.id

def start : Rehearsal := ⟨[], [], none, [], []⟩

def begin (now : Nat) (slot : Slot) (job : Job) (r : Rehearsal) : Rehearsal :=
  let script := Script.parse job.command
  let wasStarted :=
    match script with
    | .notStarted other => r.journal.contains (other, false)
    | _ => false
  { performances := ⟨slot, now, script, wasStarted⟩ :: r.performances
    entered :=
      match script with
      | .meet group _ => group :: r.entered
      | _ => r.entered
    opened :=
      match script, r.opened with
      | .listen, none => some (now + Script.listenDelay)
      | _, opened => opened
    journal := r.journal ++ [(key job, false)]
    calls := r.calls ++ [key job ++ " " ++ job.command] }

/-- Whether the port accepts connections at a time. -/
def isOpen (now : Nat) (r : Rehearsal) : Bool := r.opened.any (· ≤ now)

/-- How an execution has ended by a time, if it has. -/
def ending? (now : Nat) (p : Performance) (r : Rehearsal) : Option Ending :=
  let waitUntil := fun (isDone : Bool) (exitCode : Int) =>
    if isDone then some Script.success
    else if p.start + Script.patience ≤ now then some (Script.failure exitCode)
    else none
  match p.script with
  | .ends ending => some ending
  | .sleep ms => if p.start + ms ≤ now then some Script.success else none
  | .meet group count => waitUntil (count ≤ r.entered.count group) 99
  | .after other => waitUntil (r.journal.contains (other, true)) 98
  | .notStarted _ => some (if p.wasStarted then Script.failure 96 else Script.success)
  | .listen => if p.start + Script.listenDelay ≤ now then some Script.success else none
  | .needPort => some (if r.isOpen now then Script.success else Script.failure 97)

/-- How the last execution of a slot has ended by a time, if it has. -/
def poll (now : Nat) (slot : Slot) (job : Job) (r : Rehearsal) : Option (Ending × Rehearsal) := do
  let p ← r.performances.find? (·.slot = slot)
  let ending ← r.ending? now p
  some (ending, { r with journal := r.journal ++ [(key job, true)] })

/-- The times at which an execution may end by itself. -/
def times (p : Performance) : List Nat :=
  match p.script with
  | .sleep ms => [p.start + ms]
  | .listen => [p.start + Script.listenDelay]
  | .meet .. | .after _ => [p.start + Script.patience]
  | _ => []

/-- The next time at which something may change. -/
def wake (now : Nat) (r : Rehearsal) : Option Nat :=
  ((r.performances.flatMap times ++ r.opened.toList).filter (now < ·)).min?

def executor : Executor Rehearsal where
  begin := begin
  poll := poll
  accepts := fun now _ _ r => r.isOpen now
  wake := wake

/-- How many moves a rehearsal may have. -/
def maxMoves : Nat := 100000

def rehearse (phases : List Phase) : FanOut.Run × Rehearsal :=
  executor.carryOut maxMoves (.initial phases) start

def lastIndex? (r : Rehearsal) (entry : String × Bool) : Option Nat :=
  (r.journal.zipIdx.filter (·.1 = entry)).getLast?.map (·.2)

/-- Whether a job last began after others last ended; none if it never began. -/
def beganAfter? (r : Rehearsal) (job : String) (others : List String) : Option Bool :=
  (r.lastIndex? (job, false)).map fun began =>
    others.all fun other => (r.lastIndex? (other, true)).all (· < began)

end Rehearsal

end Fleet
