import Fleet.Shell.Action

/-!
# Processes side by side

Processes take turns: one goes on until it pauses, in the order in which they have become ready.  Only when all of
them wait does time pass, up to the moment at which one goes on.
-/

namespace Fleet.Shell

/-- A process that pauses, and what it does next. -/
structure Thread where
  id : Nat
  session : Session
  wait : Wait
  next : State → Course Unit

/-- The world and the processes in it, in the order of their turns. -/
structure Machine where
  world : World
  threads : List Thread

namespace Machine

/-- The world after a course, and the processes that it leaves: the children of the process, and itself unless it
has ended. -/
def settle : Course Unit → List Thread → Machine
  | .done _ s, before => ⟨s.world.finish s.id (.exited (s.session.status % 256)), before⟩
  | .paused wait s next, before => ⟨s.world, before ++ [⟨s.id, s.session, wait, next⟩]⟩
  | .forked child s next, before =>
    settle (next (some child) s) (before ++ [⟨child, s.session, .time s.world.clock, next none⟩])

/-- The machine after the turn of a process, which comes after all others then. -/
def turn (m : Machine) (t : Thread) : Machine :=
  settle (t.next ⟨t.id, t.session, m.world⟩) (m.threads.filter (·.id ≠ t.id))

/-- The processes that a signal has ended are gone. -/
def prune (m : Machine) : Machine := { m with threads := m.threads.filter fun t => m.world.isRunning t.id }

def ready? (m : Machine) : Option Thread := m.threads.find? fun t => t.wait.isOver m.world t.id

/-- The next moment at which a process goes on by itself. -/
def wake? (m : Machine) : Option Nat :=
  (m.threads.filterMap fun t =>
    match t.wait with
    | .time clock | .endedBy _ clock => some clock
    | _ => none).min?

/-- The machine runs until a process has ended, or until all are stuck. -/
def runUntil (id : Nat) : Nat → Machine → Machine
  | 0, m => m
  | n + 1, m =>
    let m := m.prune
    if !m.world.isRunning id then m
    else
      match m.ready? with
      | some t => runUntil id n (m.turn t)
      | none =>
        match m.wake? with
        | some clock => runUntil id n { m with world := { m.world with clock := max m.world.clock clock } }
        | none => m

/-- The machine runs as long as a process is ready at a moment. -/
def runOut : Nat → Machine → Machine
  | 0, m => m
  | n + 1, m =>
    let m := m.prune
    match m.ready? with
    | some t => runOut n (m.turn t)
    | none => m

end Machine

end Fleet.Shell
