import Fleet.Shell.Builtin.Usage
import Fleet.Shell.Expansion

/-!
# Variables, arguments and options

The builtins that give and take the variables, the arguments and the options of a shell.
-/

namespace Fleet.Shell.Builtin

/-! ### marks of variables -/

/-- Lines that tell variables, in the order of their names. -/
def listing (start : String) (bindings : List (String × Variable)) : String :=
  let sorted := bindings.mergeSort fun a b => a.1 ≤ b.1
  String.join (sorted.map fun (name, x) =>
    start ++ name ++ (match x.value with
      | some value => "=" ++ quoted value
      | none => "") ++ "\n")

/-- Variables get a mark, and perhaps values. -/
def marking (command : String) (isMarked : Variable → Bool) (mark : Variable → Variable) (args : List String) :
    Action Nat := do
  let (flags, operands) ← options ['p'] args
  if !flags.isEmpty || operands.isEmpty then
    say (listing (command ++ " ") ((← current).bindings.filter (isMarked ·.2)))
  else
    for argument in operands do
      let (name, value) := assigned argument
      if let some value := value then setVariable name value
      else if !isName name.toList then blame (name ++ ": bad variable name")
      change fun x => x.bind name (mark ((x.bindings.lookup name).getD ⟨none, false, false⟩))
  return 0

def exports : List String → Action Nat := marking "export" (·.isExported) fun x => { x with isExported := true }

def readonlys : List String → Action Nat := marking "readonly" (·.isReadOnly) fun x => { x with isReadOnly := true }

def unset (args : List String) : Action Nat := do
  let (flags, operands) ← options ['v', 'f'] args
  for name in operands do
    if (flags.getLast?.map (·.1)) = some 'f' then
      change fun x => { x with functions := x.functions.filter (·.1 ≠ name) }
    else unsetVariable name
  return 0

/-- Variables become local to the function that is run, perhaps with new values. -/
def locals (args : List String) : Action Nat := do
  let operands ← operands args
  if (← current).scopes.isEmpty then blame "not in a function"
  for argument in operands do
    let (name, value) := assigned argument
    if !isName name.toList then blame (name ++ ": bad variable name")
    keepVariable name
    if let some value := value then setVariable name value
  return 0

/-! ### options and arguments -/

def setArguments (arguments : List String) : Action Unit :=
  change fun x => { x with arguments, nextOption := 1, optionOffset := none }

/-- The options are told, as commands that set them or as a table. -/
def tellOptions (asTable : Bool) : Action Unit := do
  let x ← current
  let isOn := fun (option : String × Option Char) => option.2.any x.has
  if asTable then
    say ("Current option settings\n" ++ String.join (Session.options.map fun option =>
      option.1 ++ String.ofList (List.replicate (16 - option.1.length) ' ') ++
        (if isOn option then "on" else "off") ++ "\n"))
  else
    say (String.join (Session.options.map fun option =>
      "set " ++ (if isOn option then "-" else "+") ++ "o " ++ option.1 ++ "\n"))

/-- An option that is named is turned on or off. -/
def setNamed (isOn : Bool) (name : String) : Action Unit := do
  match Session.options.lookup name with
  | some (some flag) => change (·.setFlag isOn flag)
  | some none => pure ()
  | none => blame ("Illegal option -o " ++ name)

/-- The letters of a word of options turn options on or off.  The answer is the words after those that they use. -/
def setLetters (isOn : Bool) : List Char → List String → Action (List String)
  | [], rest => return rest
  | 'o' :: letters, rest => do
    match rest with
    | [] => tellOptions isOn
    | name :: _ => setNamed isOn name
    setLetters isOn letters rest.tail
  | c :: letters, rest => do
    if Session.options.any (·.2 = some c) then change (·.setFlag isOn c)
    else blame ("Illegal option -" ++ String.singleton c)
    setLetters isOn letters rest

/-- The options that words begin with are set; a single or double dash ends them.  The answer is the other words,
which are the arguments if there are some or if a double dash says so. -/
def setWords : Nat → List String → Action (List String × Bool)
  | 0, words => return (words, false)
  | _ + 1, [] => return ([], false)
  | n + 1, word :: rest => do
    match word.toList with
    | ['-'] => do
      change fun x => (x.setFlag false 'x').setFlag false 'v'
      return (rest, false)
    | ['-', '-'] => return (rest, true)
    | '-' :: letters => setWords n (← setLetters true letters rest)
    | '+' :: letters => setWords n (← setLetters false letters rest)
    | _ => return (word :: rest, false)

/-- Options and arguments are set, or all variables are told. -/
def set (args : List String) : Action Nat := do
  if args.isEmpty then say (listing "" ((← current).bindings.filter (·.2.value.isSome)))
  else
    let (arguments, isGiven) ← setWords args.length args
    if isGiven || !arguments.isEmpty then setArguments arguments
  return 0

def shift (args : List String) : Action Nat := do
  let count ← match args with
    | [] => pure 1
    | word :: _ => number word
  let x ← current
  if x.arguments.length < count then blame "can't shift that many"
  setArguments (x.arguments.drop count)
  return 0

/-! ### options of scripts -/

/-- How an option is taken. -/
structure OptionStep where
  /-- what the variable gets -/
  letter : Char
  /-- the value of the option, if it is set -/
  value : Option String
  /-- a message, if there is one -/
  message : Option String
  /-- the number of the next argument -/
  next : Nat
  /-- where it goes on in the argument before -/
  offset : Option Nat
  isOver : Bool

def nextOption (letters : List Char) (arguments : List String) (index : Nat) (offset : Option Nat) : OptionStep :=
  let word := fun (i : Nat) => (arguments[i - 1]?).map String.toList
  let started := match offset with
    | some offset => if 1 < index then ((word (index - 1)).filter (offset ≤ ·.length)).map (·.drop offset) else none
    | none => none
  let ended := fun (next : Nat) => OptionStep.mk '?' none none next none true
  let take := fun (next : Nat) (s : List Char) =>
    match s with
    | [] => ended next
    | c :: rest =>
      let isQuiet := letters.head? == some ':'
      let place := letters.dropWhile (· ≠ c)
      let here := if rest = [] then none else some (((word (next - 1)).getD []).length - rest.length)
      if place = [] ∨ c = ':' then
        OptionStep.mk '?' (if isQuiet then some (String.singleton c) else none)
          (if isQuiet then none else some ("Illegal option -" ++ String.singleton c)) next
          (some (((word (next - 1)).getD []).length - rest.length)) false
      else if place.tail.head? = some ':' then
        match rest, word next with
        | [], none =>
          if isQuiet then OptionStep.mk ':' (some (String.singleton c)) none next none false
          else OptionStep.mk '?' none (some ("No arg for -" ++ String.singleton c ++ " option")) next none false
        | [], some value => OptionStep.mk c (some (String.ofList value)) none (next + 1) none false
        | value, _ => OptionStep.mk c (some (String.ofList value)) none next none false
      else OptionStep.mk c (some "") none next (here <|> some ((word (next - 1)).getD []).length) false
  match started with
  | some (c :: rest) => take index (c :: rest)
  | _ =>
    match word index with
    | some ('-' :: c :: rest) => if c = '-' ∧ rest = [] then ended (index + 1) else take (index + 1) (c :: rest)
    | _ => ended index

/-- The next option among the arguments becomes the value of a variable. -/
def getopts (args : List String) : Action Nat := do
  match ← operands args with
  | letters :: name :: given => do
    let x ← current
    let arguments := if given.isEmpty then x.arguments else given
    let isBeyond := arguments.length + 1 < x.nextOption
    let index := if isBeyond then 1 else x.nextOption
    let step := nextOption letters.toList arguments index (if isBeyond then none else x.optionOffset)
    if !step.isOver then
      if let some text := step.message then warn text
      match step.value with
      | some value => setVariable "OPTARG" value
      | none => unsetVariable "OPTARG"
    change fun x => x.assign "OPTIND" (toString step.next)
    setVariable name (String.singleton step.letter)
    change fun x => { x with nextOption := step.next, optionOffset := step.offset }
    return if step.isOver then 1 else 0
  | _ => blame "Usage: getopts optstring var [arg...]"

/-! ### input -/

/-- The pieces of a line that is read: a backslash fixes the character after it, and joins lines. -/
def linePieces (isRaw : Bool) (file : Nat) : Nat → List Char → List Piece → Action (List Piece × Bool)
  | 0, _, pieces => return (pieces, false)
  | n + 1, run, pieces => do
    let loose := pieces ++ [.loose false (run.reverse.map fun c => (c, false))]
    match Octets.chars (← collect file 1) with
    | [] => return (loose, false)
    | c :: _ =>
      if c = '\x00' then linePieces isRaw file n run pieces
      else if c = '\n' then return (loose, true)
      else if c = '\\' ∧ !isRaw then
        match Octets.chars (← collect file 1) with
        | [] => return (loose, false)
        | c :: _ =>
          if c = '\n' then linePieces isRaw file n run pieces
          else linePieces isRaw file n [] (loose ++ [.fixed [(c, true)]])
      else linePieces isRaw file n (c :: run) pieces

/-- A line of the input becomes the values of variables. -/
def read (args : List String) : Action Nat := do
  let (flags, names) ← options ['p', ':', 'r'] args
  if names.isEmpty then blame "arg count"
  let (pieces, isComplete) ← match ← source? 0 with
    | some file => linePieces (flags.any (·.1 = 'r')) file patience [] []
    | none => pure ([], false)
  let values := split (← current).separators (some names.length) pieces
  for (name, i) in names.zipIdx do
    setVariable name (Sign.text ((values[i]?).getD []))
  return if isComplete then 0 else 1

end Fleet.Shell.Builtin
