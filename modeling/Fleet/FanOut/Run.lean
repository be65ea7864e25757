import Fleet.FanOut

/-!
# Running all phases

The phases of a plan are fanned out one after the other, each when the one before it is over.  The run tells
when a phase begins and how it came out.
-/

namespace Fleet.FanOut

/-- Where a run is. -/
structure Run where
  now : Nat
  /-- the phases that are over, with their last states -/
  past : List (Phase × State)
  current : Option (Phase × State)
  future : List Phase
  /-- what has been told about the phases that are over, and that the current one has begun -/
  notices : List Notice

/-- What happens next in a run. -/
inductive RunMove where
  /-- the next phase begins -/
  | open
  /-- a move within the current phase -/
  | inPhase (move : Move)
  /-- the current phase is over -/
  | close

namespace Run

def initial (phases : List Phase) : Run := ⟨0, [], none, phases, []⟩

/-- The run after a move, if the move is possible. -/
def apply (r : Run) : RunMove → Option Run
  | .open =>
    match r.current, r.future with
    | none, p :: rest =>
      some { r with
        current := some (p, .initial p r.now)
        future := rest
        notices := r.notices ++ [.dispatching p.jobClass p.jobs.length] }
    | _, _ => none
  | .inPhase move =>
    match r.current with
    | some (p, s) => (s.apply p move).map fun s => { r with current := some (p, s) }
    | none => none
  | .close =>
    match r.current with
    | some (p, s) =>
      match s.stage with
      | .closed =>
        let report := s.report p
        some { r with
          now := s.now
          past := r.past ++ [(p, s)]
          current := none
          notices := r.notices ++ s.notices ++
            [.tally report.jobClass report.successes report.failures] }
      | _ => none
    | none => none

/-- The states of a run that moves lead to. -/
inductive Reaches : Run → Run → Prop where
  | refl (r : Run) : Reaches r r
  | step {r s t : Run} (m : RunMove) : Reaches r s → apply s m = some t → Reaches r t

def isOver (r : Run) : Bool := r.current.isNone && r.future.isEmpty

/-- The report of the phases that are over. -/
def report (r : Run) (testbed : String) : RunReport :=
  ⟨testbed, r.past.map fun x => x.2.report x.1⟩

end Run

end Fleet.FanOut
