import Fleet.Shell.Builtin
import Fleet.Shell.Reader
import Fleet.Shell.Tool.Catalogue

/-!
# Running shell commands

Commands are run in the order in which they are written.  A subshell, a part of a pipeline and a program run in a
process of their own.  A process that ends after a command becomes the program that the command names.  Signals
are answered between commands.  Fuel bounds the nesting and the rounds of loops.
-/

namespace Fleet.Shell

/-- How a command is run. -/
structure Context where
  /-- its failure does not end the shell -/
  isTested : Bool
  /-- the process ends after it -/
  isLast : Bool

namespace Context

/-- The context of a command whose status is asked for. -/
def tested : Context := ⟨true, false⟩

/-- The context of a command within another one. -/
def inner (c : Context) : Context := { c with isLast := false }

/-- The context of a command that is all that a process does. -/
def last (c : Context) : Context := { c with isLast := true }

end Context

/-! ### commands by name -/

/-- A command line, as far as it is worked out. -/
structure Call where
  /-- the name and the arguments -/
  texts : List String
  /-- what stands before the name: `command` with its options -/
  before : List String
  /-- the line begins with a builtin whose faults end the shell, or with another one -/
  isSpecial : Option Bool
  withFunctions : Bool
  /-- programs are looked for in the standard places -/
  isStandard : Bool

namespace Call

/-- A command line before its first word. -/
def start : Call := ⟨[], [], none, true, false⟩

/-- Whether the variables that stand before a command are its own. -/
def hasScope (c : Call) : Bool := !c.texts.isEmpty && c.isSpecial != some true

/-- Whether the arguments of `command`, up to its last option, only ask what a name means. -/
def asks (option : String) : Bool := (option.toList.drop 1).any (· ≠ 'p')

end Call

/-- The fields of words, the first of which that give some are looked at, and the words that are left. -/
def firstFields (capture : Command → Action String) : List Word → Action (List String × List Word)
  | [] => return ([], [])
  | word :: rest => do
    match ← fields capture word with
    | [] => firstFields capture rest
    | texts => return (texts, rest)

def argumentFields (capture : Command → Action String) (mayAssign : Bool) (word : Word) : Action (List String) := do
  match if mayAssign then Reader.assignment? word else none with
  | some (name, value) => return [name ++ "=" ++ (← valueText capture value)]
  | none => fields capture word

/-- The options of `command`: what stands before the name of the command that it runs, and the rest of the line.
There is none if it asks what a name means, or if nothing follows. -/
def commandOptions (capture : Command → Action String) :
    Nat → List String → List String → List Word → Action (List String × List String × List Word × Bool)
  | 0, before, ahead, rest => return (before, ahead, rest, false)
  | n + 1, before, [], rest => do
    match ← firstFields capture rest with
    | ([], rest) => return (before, [], rest, false)
    | (ahead, rest) => commandOptions capture n before ahead rest
  | n + 1, before, word :: ahead, rest => do
    if !word.startsWith "-" || word = "-" then return (before, word :: ahead, rest, true)
    else if word = "--" then
      let (ahead, rest) ← if ahead.isEmpty then firstFields capture rest else pure (ahead, rest)
      return (before ++ [word], ahead, rest, !ahead.isEmpty)
    else if Call.asks word then return (before, word :: ahead, rest, false)
    else commandOptions capture n (before ++ [word]) ahead rest

/-- A command line with its words worked out. -/
def callOf (capture : Command → Action String) : Nat → Call → List Word → Action Call
  | 0, call, _ => return call
  | n + 1, call, rest => do
    match call.texts with
    | [] => do
      let (texts, rest) ← firstFields capture rest
      if texts.isEmpty then return call else callOf capture n { call with texts } rest
    | name :: ahead => do
      let isFunction := call.withFunctions && ((← current).functions.lookup name).isSome
      let work := if isFunction then none else Work.ofName? name
      let call := { call with isSpecial := call.isSpecial <|> work.map fun _ => specialBuiltins.contains name }
      let mayAssign := work.isSome && Work.takesAssignments name
      let finished := fun (texts : List String) (rest : List Word) => do
        let more ← rest.mapM (argumentFields capture mayAssign)
        return { call with texts := texts ++ more.flatten }
      match work with
      | some .command => do
        let (before, texts, rest, isFound) ← commandOptions capture (n + 1) [name] ahead rest
        if isFound then
          let call := { call with
            texts
            before := call.before ++ before
            withFunctions := false
            isStandard := call.isStandard || before.length > 1 && before.any (·.contains 'p') }
          callOf capture n call rest
        else finished (before ++ texts) rest
      | _ => finished (name :: ahead) rest

/-! ### programs -/

/-- What is run at a path: the program and how it is called.  A file that begins with `#!` is read by the program
that it names, and any other text by the shell. -/
def imageAt (d : Directory) : Nat → String → List String → Except SystemFault (String × List String)
  | 0, _, _ => .error (.described "Too many levels of symbolic links")
  | n + 1, path, argv => do
    program? d path
    let bytes ← d.read (Octets.path path)
    match Tool.imaged? bytes with
    | some name => return (name, argv)
    | none =>
      match Octets.chars bytes with
      | '#' :: '!' :: text =>
        let isBlank := fun (c : Char) => c == ' ' || c == '\t'
        let line := ((text.takeWhile (· ≠ '\n')).dropWhile isBlank).reverse.dropWhile isBlank |>.reverse
        let (interpreter, argument) := line.span (!isBlank ·)
        let argument := String.ofList (argument.dropWhile isBlank)
        let arguments := (if argument = "" then [] else [argument]) ++ path :: argv.tail
        if interpreter = [] then return ("sh", "sh" :: path :: argv.tail)
        else imageAt d n (String.ofList interpreter) (String.ofList interpreter :: arguments)
      | _ => return ("sh", "sh" :: path :: argv.tail)

/-- The exit status of a shell that cannot start a program. -/
def startingStatus : SystemFault → Nat
  | .notFound | .notDirectory | .nameTooLong => 127
  | _ => 126

/-- The names under which the shell itself is started, and whether it knows more then. -/
def shells : List (String × Bool) := [("sh", false), ("dash", false), ("bash", true)]

/-- The path of a program that is looked for by a search path, whatever has been found before. -/
def findAnew (path name : String) : Action (Except SystemFault String) := do
  let d ← here
  if '/' ∈ name.toList then return (program? d name).map fun _ => name
  else return firstProgram d (candidates path name) .notFound

/-- The path of a program that another program starts by its name. -/
def findForProgram (name : String) : Action (Except SystemFault String) := do
  findAnew (((← current).value? "PATH").getD "/bin:/usr/bin") name

/-! ### shells -/

/-- What a shell is started with. -/
structure Invocation where
  /-- the first operand is a command -/
  hasCommand : Bool
  operands : List String

/-- The options of a shell are set; its operands are the answer. -/
def invocation (isExtended : Bool) : Nat → List String → Action Invocation
  | 0, words => return ⟨false, words⟩
  | _ + 1, [] => return ⟨false, []⟩
  | n + 1, word :: rest => do
    if word = "--" ∨ word = "-" then return ⟨false, rest⟩
    else if isExtended ∧ word.startsWith "--" then invocation isExtended n rest
    else
      match word.toList with
      | sign :: c :: letters =>
        if sign = '-' ∨ sign = '+' then
          let letters := c :: letters
          let plain := letters.filter fun c => !(sign == '-' && (c == 'c' || c == 'l'))
          let rest ← Builtin.setLetters (sign == '-') plain rest
          let i ← invocation isExtended n rest
          return { i with hasCommand := i.hasCommand || (sign == '-' && letters.contains 'c') }
        else return ⟨false, word :: rest⟩
      | _ => return ⟨false, word :: rest⟩

def startingBindings (p : Process) (given : List (String × Variable)) : List (String × Variable) :=
  let passed := (given.filter fun (_, x) => x.isExported && x.value.isSome).map fun (name, x) =>
    (name, { x with isReadOnly := false })
  let own := [("IFS", " \t\n"), ("OPTIND", "1"), ("PPID", toString p.parent)].map fun (name, value) =>
    (name, Variable.mk (some value) false false)
  let usual := [("PATH", standardPath), ("PS1", "# "), ("PS2", "> "), ("PS4", "+ ")].map fun (name, value) =>
    (name, Variable.mk (some value) false false)
  let here := [("PWD", Variable.mk (some (locationText p.location)) true false)]
  let others := passed.filter fun (name, _) => isName name.toList && !(own ++ here).any (·.1 = name)
  here ++ own ++ others ++ usual.filter fun (name, _) => !others.any (·.1 = name)

def newSession (p : Process) (isExtended : Bool) (name : String) (x : Session) : Session :=
  { x with
    shellId := p.id, name, arguments := [], bindings := startingBindings p x.bindings, functions := [], aliases := []
    places := [], status := 0, outputStatus := 0, lastBackground := none, jobs := [], flags := [], traps := []
    finalStatus := none, loops := 0, scopes := [], nextOption := 1, optionOffset := none, line := 0
    commandName := none, outputFault := none, lastWords := none, backlog := none, isExtended }

/-! ### running -/

/-- A failed command ends the shell, if it is to. -/
def checkFailure (c : Context) : Action Unit := do
  let x ← current
  if x.has 'e' && !c.isTested && x.status ≠ 0 then
    change fun x => { x with finalStatus := none }
    throw .exit

/-- The line of a command is noted. -/
def atLine (line : Nat) : Action Unit := change fun x => { x with line }

def withLoop {α : Type} (a : Action α) : Action α := do
  let loops := (← current).loops
  change fun x => { x with loops := loops + 1 }
  ensuring a (change fun x => { x with loops })

/-- How a loop goes on. -/
inductive Round where
  | complete
  | again
  | over
  deriving DecidableEq

/-- A part of a loop is run. -/
def roundOf (a : Action Unit) : Action Round := do
  try
    a
    return .complete
  catch interrupt =>
    match interrupt with
    | .leaveLoop (loops + 2) => throw (.leaveLoop (loops + 1))
    | .leaveLoop _ => return .over
    | .nextRound (loops + 2) => throw (.nextRound (loops + 1))
    | .nextRound _ => return .again
    | interrupt => throw interrupt

/-- The shell finds out where the program is that a command names plainly. -/
def lookUp : Command → Action Unit
  | .simple _ _ ([.text false chars] :: _) _ => do
    if isName chars then let _ ← commandOf true (← searchPath) (String.ofList chars)
  | _ => pure ()

/-- How deep functions and files of commands may be nested before the shell breaks down. -/
def maxScopes : Nat := 1500

mutual

def run : Nat → Context → Command → Action Unit
  | 0, _, _ => quit 2
  | n + 1, c, command => do
    if (← current).has 'n' then return
    heed n
    match command with
    | .empty => pure ()
    | .simple line assignments words redirections => do
      atLine line
      runSimple n c assignments words redirections
      checkFailure c
    | .pipeline stages => do
      finish (← awaitProcesses (← startStages n c.last false none stages))
      checkFailure c
    | .negated command => do
      run n .tested command
      finish (if (← current).status = 0 then 1 else 0)
    | .andThen first second => do
      run n .tested first
      if (← current).status = 0 then run n c second
    | .orElse first second => do
      run n .tested first
      if (← current).status ≠ 0 then run n c second
    | .sequence first second => do
      run n c.inner first
      run n c second
    | .background command => do
      let processes ← match command with
        | .pipeline stages => startStages n c.last true none stages
        | command => do
          pure [← spawn true do
            let file ← openTarget .read "/dev/null"
            point 0 file
            conclude n (run n ⟨false, true⟩ command)]
      noteJob processes
      finish 0
    | .subshell line command redirections => do
      atLine line
      let goals ← redirections.mapM (goalOf (capture n))
      let inside := do
        goals.forM (redirect (capture n))
        run n c.last command
      if c.isLast && !(← current).hasTraps then inside
      else
        finish (← carryOut (conclude n inside))
        checkFailure c
    | .branch condition positive negative => do
      run n .tested condition
      if (← current).status = 0 then run n c positive
      else
        match negative with
        | some command => run n c command
        | none => finish 0
    | .loop isUntil condition body =>
      withLoop (runRounds n c.inner isUntil condition body 0)
    | .forEach line name words body => do
      atLine line
      let items ← match words with
        | some words => do pure (← words.mapM (fields (capture n))).flatten
        | none => do pure (← current).arguments
      finish 0
      withLoop (runEach n c.inner name items body)
    | .select line subject arms => do
      atLine line
      let subject ← single (capture n) subject
      runArms n c subject arms
    | .define name body =>
      change fun x => { x with functions := (name, body) :: x.functions.filter (·.1 ≠ name), status := 0 }
    | .redirected line command redirections => do
      atLine line
      let goals ← redirections.mapM (goalOf (capture n))
      keeping (changedDescriptors goals) do
        if ← redirectSafely (capture n) goals then run n c.inner command else finish 2
    heed n

/-- The stages of a pipeline are started, each with the end of the pipe before it.  The answer is their
processes. -/
def startStages : Nat → Context → Bool → Option Nat → List Command → Action (List Nat)
  | 0, _, _, _, _ => quit 2
  | _ + 1, _, _, _, [] => return []
  | n + 1, c, inBackground, input, stage :: rest => do
    let pipe ← if rest.isEmpty then pure none else do
      let (outlet, inlet, world) := (← get).world.openPipe []
      modify fun s => { s with world }
      pure (some (← keep outlet, ← keep inlet))
    let isFirst := input.isNone
    lookUp stage
    let child ← spawn inBackground do
      if inBackground && isFirst then point 0 (← openTarget .read "/dev/null")
      let descriptors := (← ownProcess).descriptors
      if let some file := input.bind fun d => descriptors.lookup d then point 0 file
      if let some file := pipe.bind fun ends => descriptors.lookup ends.2 then point 1 file
      for descriptor in input.toList ++ pipe.toList.flatMap fun (a, b) => [a, b] do release descriptor
      conclude n (run n c stage)
    if let some descriptor := input then release descriptor
    if let some (_, inlet) := pipe then release inlet
    return child :: (← startStages n c inBackground (pipe.map (·.1)) rest)

/-- A loop is run, which ends with the status of its last round. -/
def runRounds : Nat → Context → Bool → Command → Command → Nat → Action Unit
  | 0, _, _, _, _, _ => quit 2
  | n + 1, c, isUntil, condition, body, last => do
    elapse 1
    match ← roundOf (run n .tested condition) with
    | .over => finish last
    | .again => runRounds n c isUntil condition body last
    | .complete =>
      if ((← current).status = 0) = isUntil then finish last
      else
        match ← roundOf (run n c body) with
        | .over => pure ()
        | _ => runRounds n c isUntil condition body (← current).status

def runEach : Nat → Context → String → List String → Command → Action Unit
  | 0, _, _, _, _ => quit 2
  | _ + 1, _, _, [], _ => pure ()
  | n + 1, c, name, item :: rest, body => do
    elapse 1
    setVariable name item
    if (← roundOf (run n c body)) ≠ .over then runEach n c name rest body

/-- The first alternative of a selection that fits is run. -/
def runArms : Nat → Context → String → List (List Word × Command) → Action Unit
  | 0, _, _, _ => quit 2
  | _ + 1, _, _, [] => finish 0
  | n + 1, c, subject, (patterns, body) :: rest => do
    if ← patterns.anyM fun word => return (← patternOf (capture n) word).admits subject.toList then
      match body with
      | .empty => finish 0
      | body => run n c body
    else runArms n c subject rest

/-- What a command puts out, without newlines at its end. -/
def capture : Nat → Command → Action String
  | 0, _ => quit 2
  | n + 1, command => do
    let (outlet, inlet, world) := (← get).world.openPipe []
    modify fun s => { s with world }
    let own ← keep outlet
    let other ← keep inlet
    let child ← spawn false do
      point 1 inlet
      release own
      release other
      conclude n (run n ⟨false, true⟩ command)
    release other
    let bytes ← collectAll outlet patience []
    release own
    let status ← awaitProcesses [child]
    change fun x => { x with outputStatus := status }
    return Octets.ofBytes ((bytes.reverse.dropWhile (· == 10)).reverse.filter (· ≠ 0))

/-- A simple command is run: assignments alone, or a builtin, a function or a program. -/
def runSimple : Nat → Context → List (String × Word) → List Word → List Redirection → Action Unit
  | 0, _, _, _, _ => quit 2
  | n + 1, c, assignments, words, redirections => do
    change fun x => { x with outputStatus := 0 }
    let call ← callOf (capture n) (words.length + 1) .start words
    let goals ← redirections.mapM (goalOf (capture n))
    let trace := (← ownProcess).descriptors.lookup 2
    let isExec := call.isSpecial.isSome && call.texts.head? == some "exec"
    let body := do
      if !(← redirectSafely (capture n) goals) then
        finish 2
        if call.isSpecial = some true then throw .fault
      else
        let values ← assignments.mapM fun (name, word) => do
          let value ← valueText (capture n) word
          if call.hasScope then keepVariable name
          setVariable name value
          if call.hasScope || isExec && 1 < call.texts.length then
            change fun x => x.bind name { (x.bindings.lookup name).getD default with isExported := true }
          return name ++ "=" ++ value
        if (← current).has 'x' then traceLine n trace (values ++ call.before ++ call.texts)
        runCall n c call
    let whole := if call.hasScope then withLocals body else body
    if isExec then whole else keeping (changedDescriptors goals) whole

/-- The words of a command are written before it is run. -/
def traceLine : Nat → Option Nat → List String → Action Unit
  | 0, _, _ => quit 2
  | n + 1, file, texts => do
    let x ← current
    let mark := (x.value? "PS4").getD ""
    let start ← match Reader.nextLine false [] ⟨'"' :: mark.toList ++ ['"'], 1⟩ with
      | .ok (some (.simple _ _ [word] _), _) => do
        change (·.setFlag false 'x')
        let text ← documentText (capture n) word
        change (·.setFlag true 'x')
        pure text
      | _ => pure mark
    if let some file := file then
      let _ ← deposit file patience (Octets.bytes (start ++ String.intercalate " " texts ++ "\n"))

def runCall : Nat → Context → Call → Action Unit
  | 0, _, _ => quit 2
  | n + 1, c, call => do
    match call.texts with
    | [] => finish (← current).outputStatus
    | name :: args => do
      let path ← if call.isStandard then pure standardPath else searchPath
      match ← commandOf call.withFunctions path name with
      | .nothing fault =>
        complain (name ++ ": " ++ startingFault fault)
        finish 127
      | .function body => callFunction n c body args
      | .builtin work => runBuiltin n c (call.isSpecial = some true) name work args
      | .program place _ =>
        if c.isLast && !(← current).hasTraps then
          execute n place call.texts
          throw .exit
        else finish (← carryOut (execute n place call.texts))
      | .keyword | .alias _ => pure ()

/-- A function is run with its own arguments. -/
def callFunction : Nat → Context → Command → List String → Action Unit
  | 0, _, _, _ => quit 2
  | n + 1, c, body, args => do
    let x ← current
    if maxScopes < x.scopes.length then
      signal (← get).id 11
    change fun x => { x with arguments := args, nextOption := 1, optionOffset := none, loops := 0 }
    let inside := do
      try run n c.inner body
      catch interrupt =>
        match interrupt with
        | .leaveFunction _ => pure ()
        | interrupt => throw interrupt
    ensuring inside (change fun y =>
      { y with
        arguments := x.arguments, nextOption := x.nextOption, optionOffset := x.optionOffset, loops := x.loops })

/-- A builtin is run.  Its fault ends the shell if it is a special one. -/
def runBuiltin : Nat → Context → Bool → String → Work → List String → Action Unit
  | 0, _, _, _, _, _ => quit 2
  | n + 1, c, isSpecial, name, work, args => do
    let before := (← current).commandName
    change fun x => { x with commandName := some name, outputFault := none }
    let inside := do
      let status ← carryOutWork n c work args
      if (← current).outputFault.isSome then
        complain (name ++ ": I/O error")
        finish (status ||| 1)
      else finish status
    try ensuring inside (change fun x => { x with commandName := before, outputFault := none })
    catch interrupt => if interrupt != .fault || isSpecial then throw interrupt
    noteEndings false

/-- What a builtin does is carried out.  The answer is its exit status. -/
def carryOutWork : Nat → Context → Work → List String → Action Nat
  | 0, _, _, _ => quit 2
  | n + 1, c, work, args => do
    match work with
    | .plain f => f args
    | .hash => rehash args
    | .type => describeAll args 0
    | .eval => interpret n c.inner (String.intercalate " " args)
    | .source => do
      match ← Builtin.operands args with
      | [] => return 0
      | path :: _ => sourceFile n c path
    | .exec => do
      match ← Builtin.operands args with
      | [] => return 0
      | name :: rest => do
        match ← findAnew (← searchPath) name with
        | .ok place => execute n place (name :: rest)
        | .error fault =>
          complain (name ++ ": " ++ startingFault fault)
          finish (startingStatus fault)
        change fun x => { x with finalStatus := none }
        throw .exit
    | .command => do
      let (flags, names) ← Builtin.options ['p', 'v', 'V'] args
      match flags.reverse.find? (·.1 ≠ 'p'), names with
      | some (kind, _), name :: _ =>
        describe (kind == 'V') (if flags.any (·.1 = 'p') then some standardPath else none) name
      | _, _ => return 0

/-- The commands of a file are run.  The answer is the status of the last one. -/
def sourceFile : Nat → Context → String → Action Nat
  | 0, _, _ => quit 2
  | n + 1, c, path => do
    let d ← here
    let folders ← searchPath
    let place? := if '/' ∈ path.toList then some path else
      (candidates folders path).find? fun place =>
        match d.node (Octets.path place) with
        | .ok (.file ..) => true
        | _ => false
    match place? with
    | none => blame (path ++ ": not found")
    | some place => do
      let text ← match d.node (Octets.path place) with
        | .ok (.file bytes _) => pure (Octets.ofBytes bytes)
        | .ok _ => pure ""
        | .error fault => blame (openingFault false place fault)
      change fun x => { x with commandName := some place }
      if maxScopes < (← current).scopes.length then signal (← get).id 11
      try interpret n c.inner text
      catch interrupt =>
        match interrupt with
        | .leaveFunction _ => return (← current).status
        | interrupt => throw interrupt

def execute : Nat → String → List String → Action Unit
  | 0, _, _ => quit 2
  | n + 1, path, argv => do
    match imageAt (← here) 5 path argv with
    | .error fault => do
      complain (argv.headD "" ++ ": " ++ startingFault fault)
      finish (startingStatus fault)
    | .ok (program, argv) => do
      releasePrivate
      elapse 1000
      alterOwn fun p => { p with caught := [] }
      change fun x => { x with traps := x.traps.filter (·.2 = ""), finalStatus := none, commandName := none }
      let name := argv.headD ""
      match shells.lookup program with
      | some isExtended => startShell n isExtended name argv.tail
      | none =>
        let starter : Tool.Starter := ⟨findForProgram, execute n⟩
        match Tool.programs.lookup program, Tool.launchers.lookup program with
        | some tool, _ => Tool.run tool name argv.tail
        | none, some tool => Tool.run (tool starter) name argv.tail
        | none, none => finish 126

/-- The process becomes a shell with options and operands. -/
def startShell : Nat → Bool → String → List String → Action Unit
  | 0, _, _, _ => quit 2
  | n + 1, isExtended, called, args => do
    let p ← ownProcess
    change (newSession p isExtended called)
    conclude n do
      let i ← invocation isExtended (args.length + 1) args
      let give := fun (name : String) (arguments : List String) => change fun x => { x with name, arguments }
      let readsInput := (← current).has 's'
      match i.hasCommand, if readsInput && !i.hasCommand then [] else i.operands with
      | true, [] => blame "-c requires an argument"
      | true, command :: rest => do
        give (rest.headD called) rest.tail
        interpretAll n command
      | false, path :: rest => do
        match (← here).node (Octets.path path) with
        | .error fault => blame (openingFault false path fault)
        | .ok (.file bytes _) => do
          give path rest
          interpretAll n (Octets.ofBytes bytes)
        | .ok _ => give path rest
      | false, [] => do
        change (·.setFlag true 's')
        give called i.operands
        match ← source? 0 with
        | some file => interpretAll n (Octets.ofBytes (← collectAll file patience []))
        | none => pure ()

/-- The commands of a text are all that a shell runs, but for those at its end. -/
def interpretAll : Nat → String → Action Unit
  | 0, _ => quit 2
  | n + 1, text => do
    try
      let status ← interpret n ⟨false, false⟩ text
      finish status
    catch interrupt =>
      match interrupt with
      | .leaveFunction _ | .leaveLoop _ | .nextRound _ => pure ()
      | interrupt => throw interrupt

/-- What a process does comes to its end, and then the commands for the end of the shell are run. -/
def conclude : Nat → Action Unit → Action Unit
  | 0, _ => quit 2
  | n + 1, a => do
    try a
    catch interrupt =>
      match interrupt with
      | .gone => throw .gone
      | .exit => do
        let x ← current
        finish (x.finalStatus.getD x.status)
      | _ => pure ()
    let x ← current
    change fun x => { x with finalStatus := none, loops := 0, commandName := none }
    match x.traps.lookup 0 with
    | none => pure ()
    | some text => do
      change fun y => { y.setTrap 0 none with finalStatus := some x.status }
      try
        let _ ← interpret n ⟨false, false⟩ text
        finish x.status
      catch interrupt =>
        match interrupt with
        | .gone => throw .gone
        | .fault => pure ()
        | .exit => do
          let y ← current
          finish (y.finalStatus.getD y.status)
        | _ => finish x.status

def heed : Nat → Action Unit
  | 0 => quit 2
  | n + 1 => do
    match (← ownProcess).pending.min? with
    | none => pure ()
    | some number => do
      alterOwn fun p => { p with pending := p.pending.filter (· ≠ number) }
      let x ← current
      let status := x.finalStatus.getD x.status
      match x.traps.lookup number with
      | none => pure ()
      | some text => do
        change fun y => { y with finalStatus := some status }
        let forget := change fun y => { y with finalStatus := x.finalStatus }
        try
          let _ ← interpret n ⟨false, false⟩ text
          forget
          finish x.status
        catch interrupt =>
          match interrupt with
          | .leaveFunction true => forget
          | .leaveFunction false | .leaveLoop _ | .nextRound _ => do
            forget
            finish x.status
          | _ => pure ()
          throw interrupt
      heed n

/-- The commands of a text are run, each line before the next one is read.  The answer is the status of the last
command. -/
def interpret : Nat → Context → String → Action Nat
  | 0, _, _ => quit 2
  | n + 1, c, text => interpretRest n c ⟨text.toList, 1⟩ 0

/-- The commands of the rest of a text are run. -/
def interpretRest : Nat → Context → Position → Nat → Action Nat
  | 0, _, _, _ => quit 2
  | n + 1, c, position, status => do
    let x ← current
    match Reader.nextLine x.isExtended x.aliases position with
    | .ok (none, _) => return status
    | .ok (some command, rest) => do
      run n c command
      match command with
      | .empty => interpretRest n c rest status
      | _ => interpretRest n c rest (← current).status
    | .error (line, fault) => do
      atLine line
      blame ("Syntax error: " ++ fault.message)

end

def runFuel : Nat := patience

end Fleet.Shell
