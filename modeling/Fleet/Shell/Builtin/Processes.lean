import Fleet.Shell.Builtin.Usage
import Fleet.Shell.Escape
import Fleet.Shell.Jobs

/-!
# Processes and signals

The builtins that send signals and answer them, wait for jobs and tell them, and limit what processes may do.
-/

namespace Fleet.Shell.Builtin

/-! ### signals -/

/-- The number of a signal from a least one on that a word names. -/
def signalFrom (least : Nat) (word : String) : Option Nat := (Signal.ofName? word).filter (least ≤ ·)

def tellTraps : Action Unit := do
  let x ← current
  for number in List.range (Signal.greatest + 1) do
    if let some action := x.traps.lookup number then
      say ("trap -- " ++ quoted action ++ " " ++ Signal.name number ++ "\n")

/-- A signal is answered with commands, with nothing, or as always.  What a process did not hear when its shell
began stays unheard. -/
def setTrap (number : Nat) (action : Option String) : Action Unit := do
  let x ← current
  let p ← ownProcess
  let isFixed := number ∈ p.ignored && x.traps.lookup number != some ""
  change (·.setTrap number action)
  if number ≠ 0 ∧ !isFixed then
    alterOwn fun p =>
      { p with
        ignored := p.ignored.filter (· ≠ number) ++ (if action = some "" then [number] else [])
        caught := p.caught.filter (· ≠ number) ++ (if action.any (· ≠ "") then [number] else []) }

/-- Signals get answers.  The answer is the exit status. -/
def setTraps (action : Option String) : List String → Action Nat
  | [] => return 0
  | word :: rest => do
    match Signal.ofName? word with
    | some number =>
      setTrap number action
      setTraps action rest
    | none =>
      warn ("trap: " ++ word ++ ": bad trap")
      return 1

/-- The answers to signals are set or told. -/
def trap (args : List String) : Action Nat := do
  match ← operands args with
  | [] =>
    tellTraps
    return 0
  | [word] => setTraps none [word]
  | action :: words =>
    if (Signal.ofDigits? action).isSome then setTraps none (action :: words)
    else setTraps (if action = "-" then none else some action) words

/-- The names of signals, or of the one that a number names. -/
def signalNames : List String → Action Nat
  | [] => do
    say ("0\n" ++ String.join ((List.range Signal.greatest).map fun n => Signal.name (n + 1) ++ "\n"))
    return 0
  | word :: _ => do
    let n ← number word
    let signal := if 128 < n then n - 128 else n
    if 0 < signal ∧ signal ≤ Signal.greatest then say (Signal.name signal ++ "\n")
    else blame ("invalid signal number or exit status: " ++ word)
    return 0

/-- The process that a word names, if it names one alone. -/
def processOf (word : String) : Action (Option Nat) := do
  if word.startsWith "%" then
    let _ ← jobOf word
    return none
  else if word.startsWith "-" then
    let _ ← number (word.drop 1).toString
    return none
  else return some (← number word)

/-- A signal is sent to processes.  The answer is the exit status. -/
def sendAll (signal : Nat) (words : List String) : Action Nat := do
  let mut status := 0
  for word in words do
    let w := (← get).world
    match (← processOf word).filter fun id => (w.process? id).isSome with
    | some id => Shell.signal id signal
    | none =>
      complain "No such process\n"
      status := 1
  return status

/-- A signal is sent to processes, or signals are told. -/
def kill (args : List String) : Action Nat := do
  let usage : Action Nat := blame "Usage: kill [-s sigspec | -signum | -sigspec] [pid | job]... or\nkill -l [exitstatus]"
  let send := fun (signal : Nat) (words : List String) => if words.isEmpty then usage else sendAll signal words
  match args with
  | [] => usage
  | word :: rest =>
    match if word.startsWith "-" then signalFrom 0 (word.drop 1).toString else none with
    | some signal => send signal rest
    | none => do
      let (flags, words) ← options ['l', 's', ':'] args
      let signals ← (flags.filter (·.1 = 's')).mapM fun flag => do
        match signalFrom 0 flag.2 with
        | some signal => return signal
        | none => blame ("invalid signal number or name: " ++ flag.2)
      if flags.any (·.1 = 'l') then
        if signals.isEmpty then signalNames words else usage
      else send (signals.getLast?.getD 15) words

/-! ### jobs -/

def jobs (args : List String) : Action Nat := do
  let (flags, words) ← options ['l', 'p'] args
  noteEndings true
  let chosen ← if words.isEmpty then do pure (← current).jobs else words.mapM jobOf
  tellJobs (flags.any (·.1 = 'l')) (flags.any (·.1 = 'p')) chosen
  return 0

def wait (args : List String) : Action Nat := do
  match ← operands args with
  | [] => awaitAll
  | words => awaitNamed words 127

/-- A job cannot be moved, because it has not been started to be. -/
def resume (args : List String) : Action Nat := do
  let words ← operands args
  for word in if words.isEmpty then ["%%"] else words do
    let job ← jobOf word
    blame ("job " ++ (if words.isEmpty then "(null)" else "%" ++ toString job.number) ++ " not created under job control")
  return 0

/-! ### limits -/

def times (_ : List String) : Action Nat := do
  let line := "0m0.000000s 0m0.000000s\n"
  say (line ++ line)
  return 0

def permissionText (bits : Nat) : String :=
  String.ofList ([(4, 'r'), (2, 'w'), (1, 'x')].filterMap fun (bit, c) => if bits &&& bit ≠ 0 then some c else none)

/-- The permissions that a clause such as `u+rw` leaves, of three digits of them. -/
def permit (bits : Nat) (clause : List Char) : Option Nat :=
  let (who, rest) := clause.span (· ∈ ['u', 'g', 'o', 'a'])
  let places := if who = [] ∨ 'a' ∈ who then ['u', 'g', 'o'] else who
  let shifts := places.map fun c => if c = 'u' then 6 else if c = 'g' then 3 else 0
  match rest with
  | op :: letters =>
    if op ∈ ['+', '-', '='] ∧ letters.all (· ∈ ['r', 'w', 'x', 'X', 's', 't']) then
      let value := ([('r', 4), ('w', 2), ('x', 1)].filter (letters.contains ·.1)).foldl (fun n (_, bit) => n + bit) 0
      some (shifts.foldl (fun bits shift =>
        let old := (bits >>> shift) % 8
        let new := if op = '+' then old ||| value else if op = '-' then old &&& (7 - value) else value
        bits - (old <<< shift) + (new <<< shift)) bits)
    else none
  | [] => none

/-- A number in octal digits, at least so many of them. -/
def octalText (width n : Nat) : String :=
  let digits := Nat.toDigits 8 n
  String.ofList (List.replicate (width - digits.length) '0' ++ digits)

/-- The permissions that new files do not get are set or told. -/
def umask (args : List String) : Action Nat := do
  let (flags, words) ← options ['S'] args
  let mask := (← current).mask
  match words with
  | [] =>
    if flags.isEmpty then say (octalText 4 mask ++ "\n")
    else
      let given := fun (shift : Nat) => permissionText (7 - (mask >>> shift) % 8)
      say ("u=" ++ given 6 ++ ",g=" ++ given 3 ++ ",o=" ++ given 0 ++ "\n")
  | word :: _ =>
    if word.toList.head?.any Char.isDigit then
      if word.toList.all Escape.isOctal then change fun x => { x with mask := Escape.octal word.toList % 512 }
      else blame ("Illegal number: " ++ word)
    else
      match (word.toList.splitOn ',').foldl (fun bits clause => bits.bind (permit · clause)) (some (511 - mask)) with
      | some bits => change fun x => { x with mask := 511 - bits }
      | none => blame ("Illegal mode: " ++ word)
  return 0

def ulimit (args : List String) : Action Nat := do
  let (flags, words) ← options ("HSatfdscmlpnvwr".toList) args
  match words with
  | [] => if flags.all (·.1 ≠ 'a') then say "unlimited\n"
  | [word] => if word ≠ "unlimited" ∧ !word.toList.all Char.isDigit then blame "bad number"
  | _ => blame "too many arguments"
  return 0

end Fleet.Shell.Builtin
