import Fleet.Shell.Redirection

/-!
# Jobs

A job is a command that runs in processes of its own.  The shell waits for a job in the foreground, and remembers
one in the background until it has been asked how it has ended.
-/

namespace Fleet.Shell

/-! ### statuses -/

/-- The exit status that the end of a process counts as. -/
def statusOf : ExitStatus → Nat
  | .exited code => code
  | .killed number => 128 + number

/-- The words for the end of a process, if there is something to tell about it. -/
def endingText? : ExitStatus → Option String
  | .exited _ => none
  | .killed number => if Signal.isSilent number then none else some (Signal.description number)

/-! ### processes -/

/-- A process of the shell's own carries an action out; the answer is its number.  One in the background does not
hear interrupts. -/
def spawn (inBackground : Bool) (a : Action Unit) : Action Nat := do
  match ← fork with
  | some child => return child
  | none =>
    change (·.forked)
    alterOwn fun p =>
      { p with
        caught := []
        ignored := if inBackground then p.ignored ++ [2, 3] else p.ignored }
    a
    throw .gone

/-- The ends of processes that belong to jobs are noted, and the processes are forgotten.  An end in this very moment
may be too new to be noted. -/
def noteEndings (withNewest : Bool) : Action Unit := do
  let s ← get
  let ended := s.world.processes.filterMap fun p =>
    if p.parent = s.id ∧ (withNewest ∨ p.endedAt < s.world.clock) then p.ending.map fun ending => (p.id, ending) else none
  for (id, ending) in ended do
    alter (·.reap id)
    change fun x =>
      { x with
        jobs := x.jobs.map fun job =>
          if id ∈ job.processes then { job with endings := job.endings ++ [(id, ending)] } else job }

/-- The shell waits for processes in the foreground.  The answer is the status of the last one. -/
def awaitProcesses (processes : List Nat) : Action Nat := do
  let w := (← get).world
  if processes.any w.isRunning then pause (.ended processes)
  let mut status := 0
  for id in processes do
    match ((← get).world.process? id).bind (·.ending) with
    | some ending =>
      alter (·.reap id)
      if let some text := endingText? ending then warn text
      status := statusOf ending
    | none => status := 0
  noteEndings true
  return status

/-- A process carries an action out in the foreground.  The answer is its status. -/
def carryOut (a : Action Unit) : Action Nat := do awaitProcesses [← spawn false a]

/-! ### jobs in the background -/

/-- A place among the jobs is taken: the first that is free, or that of a job which nobody asks for any more. -/
def freeNumber (jobs : List JobEntry) : Nat × List JobEntry :=
  let isFree := fun (n : Nat) => jobs.all fun job => job.number != n || (job.isAwaited && !job.isRunning)
  let number := ((List.range (jobs.length + 1)).map (· + 1)).find? isFree |>.getD (jobs.length + 1)
  (number, jobs.filter (·.number ≠ number))

def noteJob (processes : List Nat) : Action Unit := change fun x =>
  let (number, others) := freeNumber x.jobs
  { x with jobs := ⟨number, processes, [], false⟩ :: others, lastBackground := processes.getLast? }

def jobOf (word : String) : Action JobEntry := do
  let jobs := (← current).jobs
  let found : Option JobEntry :=
    if word ∈ currentJob then jobs.head?
    else if word = "%-" then jobs[1]?
    else (Numeral.count? (word.drop 1).toString).bind fun number => jobs.find? (·.number = number)
  match found with
  | some job => return job
  | none =>
    if word ∈ currentJob then blame "No current job"
    else if word = "%-" then blame "No previous job"
    else blame ("No such job: " ++ word)
where
  currentJob : List String := ["%", "%%", "%+"]

def jobLine (jobs : List JobEntry) (withProcesses : Bool) (job : JobEntry) : String :=
  let mark :=
    match jobs.findIdx? (·.number = job.number) with
    | some 0 => "+"
    | some 1 => "-"
    | _ => " "
  let start := "[" ++ toString job.number ++ "] " ++ mark ++ " "
  let state :=
    match job.isRunning, job.ending? with
    | true, _ | _, none => "Running"
    | _, some (.exited 0) => "Done"
    | _, some (.exited code) => "Done(" ++ toString code ++ ")"
    | _, some (.killed number) => Signal.description number
  let fill := fun (width : Nat) (text : String) => text ++ String.ofList (List.replicate (max 1 (width - text.length)) ' ')
  if withProcesses then
    let ids := job.processes.map toString
    let first := fill 33 (start ++ ids.headD "" ++ " " ++ state)
    let more := ids.tail.map fun id => "\n" ++ String.ofList (List.replicate start.length ' ') ++ id ++ " "
      ++ String.ofList (List.replicate (33 - (start.length + id.length + 1)) ' ') ++ "| "
    first ++ String.join more ++ "\n"
  else fill 33 (start ++ state) ++ String.join (job.processes.tail.map fun _ => " | ") ++ "\n"

/-- The jobs are told.  One that has ended is told once. -/
def tellJobs (withProcesses onlyProcesses : Bool) (chosen : List JobEntry) : Action Unit := do
  for job in chosen do
    if onlyProcesses then say (toString (job.processes.headD 0) ++ "\n")
    else
      say (jobLine (← current).jobs withProcesses job)
      if !job.isRunning then change fun x => { x with jobs := x.jobs.filter (·.number ≠ job.number) }

/-! ### waiting -/

/-- A job, or all of them, has been asked for. -/
def markAwaited (number : Option Nat) : Action Unit := change fun x =>
  { x with
    jobs := x.jobs.map fun job => if number.all (· = job.number) then { job with isAwaited := true } else job }

/-- The shell waits until some processes have ended, unless a signal is to be answered before.  The answer is the
signal then. -/
def awaitNews (isOver : Session → Bool) : Nat → Action (Option Nat)
  | 0 => return none
  | n + 1 => do
    noteEndings true
    let x ← current
    if isOver x then return none
    else
      let running := x.jobs.flatMap fun job => job.processes.filter fun id => (job.endings.lookup id).isNone
      pause (.news running)
      match (← ownProcess).pending.getLast? with
      | some number => return some number
      | none => awaitNews isOver n

/-- The shell waits for all its jobs.  The answer is the status of that. -/
def awaitAll : Action Nat := do
  match ← awaitNews (fun x => !x.jobs.any (·.isRunning)) patience with
  | some number => return 128 + number
  | none =>
    markAwaited none
    return 0

/-- The shell waits for jobs that words name.  The answer is the status of the last one. -/
def awaitNamed : List String → Nat → Action Nat
  | [], status => return status
  | word :: rest, status => do
    let job? ← if word.startsWith "%" then do pure (some (← jobOf word)) else
      match Numeral.count? word with
      | some id => do pure ((← current).jobs.find? fun job => job.processes.getLast? = some id)
      | none => blame ("Illegal number: " ++ word)
    match job? with
    | none => awaitNamed rest 127
    | some job =>
      let state := fun (x : Session) => (x.jobs.find? (·.number = job.number)).getD job
      match ← awaitNews (fun x => !(state x).isRunning) patience with
      | some number => return 128 + number
      | none =>
        let ended := state (← current)
        for (id, ending) in ended.endings do
          if let some text := endingText? ending then
            if (job.endings.lookup id).isNone then warn text
        markAwaited (some job.number)
        awaitNamed rest ((ended.ending?.map statusOf).getD status)

end Fleet.Shell
