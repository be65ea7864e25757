import Fleet.Plan

/-!
# Command lines

The words of a command line as settings.  A setting is named by a long name after two dashes, or by a letter
after one, and letters without values can share a dash.  A value is attached, after an equals sign or right behind
the letter, or it is the next word, which then must not look like a name.  Every setting but the lists may be
given once, and lists are given in parts, between commas or in several settings.
-/

namespace Fleet

/-- What is either given or not. -/
inductive Switch where
  | sync
  | asRoot
  | debug
  | json
  deriving DecidableEq, Inhabited

/-- What has a value. -/
inductive Setting where
  | configFile
  | nodeFile
  | limit
  | skip
  | offline
  | command
  | outfile
  | remoteDirectory
  | experiment
  | bin
  | overrides
  deriving DecidableEq, Inhabited

/-- What a name on a command line stands for. -/
inductive Naming where
  | switch (s : Switch)
  | setting (s : Setting)
  | help
  | version
  deriving DecidableEq, Inhabited

/-- Why a command line asks for no run. -/
inductive Stop where
  | usage
  | help
  | version
  deriving DecidableEq, Inhabited

/-- The settings of a command line. -/
structure CommandLine where
  switches : List Switch
  values : List (Setting × List String)
  deriving Inhabited

namespace CommandLine

def empty : CommandLine := ⟨[], []⟩

/-! ### names -/

def long? (name : String) : Option Naming :=
  match name with
  | "configfile" => some (.setting .configFile)
  | "nodefile" => some (.setting .nodeFile)
  | "num-nodes" => some (.setting .limit)
  | "skip" => some (.setting .skip)
  | "offline" => some (.setting .offline)
  | "sync" => some (.switch .sync)
  | "cmd" => some (.setting .command)
  | "outfile" => some (.setting .outfile)
  | "get-data" => some (.setting .remoteDirectory)
  | "sudo" => some (.switch .asRoot)
  | "debug" => some (.switch .debug)
  | "exp" => some (.setting .experiment)
  | "exp-bin" => some (.setting .bin)
  | "exp-args" => some (.setting .overrides)
  | "json" => some (.switch .json)
  | "help" => some .help
  | "version" => some .version
  | _ => none

def short? (c : Char) : Option Naming :=
  match c with
  | 'c' => some (.setting .configFile)
  | 'n' => some (.setting .nodeFile)
  | 'N' => some (.setting .limit)
  | 's' => some (.switch .sync)
  | 'D' => some (.setting .remoteDirectory)
  | 'S' => some (.switch .asRoot)
  | 'h' => some .help
  | 'V' => some .version
  | _ => none

/-! ### values -/

def Setting.isList : Setting → Bool
  | .skip | .offline | .overrides => true
  | _ => false

/-- The number of hosts that a text spells, with a plus sign or without, if it fits into 64 bits. -/
def number? (text : String) : Option Nat :=
  let digits := match text.toList with
    | '+' :: rest => rest
    | s => s
  if digits ≠ [] ∧ digits.all Char.isDigit then
    ((String.ofList digits).toNat?).filter (· < UInt64.size)
  else none

/-- The values that a text gives a setting, if it may have them. -/
def valuesOf (s : Setting) (text : String) : Option (List String) :=
  match s with
  | .configFile | .nodeFile => if text = "" then none else some [text]
  | .limit => if (number? text).isSome then some [text] else none
  | .skip | .offline | .overrides => some ((text.toList.splitOn ',').map String.ofList)
  | _ => some [text]

/-- The command line with a switch, which must be new. -/
def turnOn (c : CommandLine) (s : Switch) : Except Stop CommandLine :=
  if s ∈ c.switches then .error .usage else .ok { c with switches := c.switches ++ [s] }

def set (c : CommandLine) (s : Setting) (text : String) : Except Stop CommandLine :=
  match c.values.lookup s, valuesOf s text with
  | _, none => .error .usage
  | none, some values => .ok { c with values := c.values ++ [(s, values)] }
  | some old, some values =>
    if Setting.isList s then
      .ok { c with values := c.values.map fun x => if x.1 = s then (s, old ++ values) else x }
    else .error .usage

/-! ### words -/

/-- The command line after the letters of a word, and the setting that is still without a value. -/
def readLetters (c : CommandLine) : List Char → Except Stop (CommandLine × Option Setting)
  | [] => .ok (c, none)
  | letter :: rest =>
    match short? letter with
    | none => .error .usage
    | some .help => .error .help
    | some .version => .error .version
    | some (.switch s) =>
      match c.turnOn s with
      | .ok c => if rest.head? = some '=' then .error .usage else readLetters c rest
      | .error stop => .error stop
    | some (.setting s) =>
      match rest with
      | [] => .ok (c, some s)
      | '=' :: value => (c.set s (String.ofList value)).map ((·, none))
      | value => (c.set s (String.ofList value)).map ((·, none))

/-- The command line after a word that begins with two dashes, and the setting that is still without a value. -/
def readLong (c : CommandLine) (word : List Char) : Except Stop (CommandLine × Option Setting) :=
  let (name, value) := match word.span (· != '=') with
    | (name, _ :: value) => (String.ofList name, some (String.ofList value))
    | (name, []) => (String.ofList name, none)
  match long? name, value with
  | none, _ => .error .usage
  | some .help, none => .error .help
  | some .version, none => .error .version
  | some (.switch s), none => (c.turnOn s).map ((·, none))
  | some (.setting s), some value => (c.set s value).map ((·, none))
  | some (.setting s), none => .ok (c, some s)
  | some _, some _ => .error .usage

/-- The command line after one word, and the setting that is still without a value. -/
def readWord (c : CommandLine) (word : String) : Except Stop (CommandLine × Option Setting) :=
  match word.toList with
  | '-' :: '-' :: rest => c.readLong rest
  | '-' :: letter :: rest => c.readLetters (letter :: rest)
  | _ => .error .usage

def isNaming (word : String) : Bool := word.toList.head? == some '-' && 1 < word.length

/-- The command line after all words, of which the first may be the value of a setting. -/
def readWords (c : CommandLine) : Option Setting → List String → Except Stop CommandLine
  | none, [] => .ok c
  | some _, [] => .error .usage
  | none, "--" :: rest => if rest = [] then .ok c else .error .usage
  | none, word :: rest =>
    match c.readWord word with
    | .ok (c, pending) => c.readWords pending rest
    | .error stop => .error stop
  | some s, word :: rest =>
    if isNaming word then .error .usage
    else
      match c.set s word with
      | .ok c => c.readWords none rest
      | .error stop => .error stop

/-- The command line that words are; the node file must be given. -/
def parse (words : List String) : Except Stop CommandLine :=
  match empty.readWords none words with
  | .ok c => if (c.values.lookup .nodeFile).isSome then .ok c else .error .usage
  | .error stop => .error stop

/-! ### what is asked for -/

def texts (c : CommandLine) (s : Setting) : List String := (c.values.lookup s).getD []

def text? (c : CommandLine) (s : Setting) : Option String := (c.texts s).head?

/-- The configuration file unless another one is given. -/
def defaultConfigFile : Path := ⟨"rexec.yaml"⟩

def configFile (c : CommandLine) : Path := ((c.text? .configFile).map Path.mk).getD defaultConfigFile

def wantsJson (c : CommandLine) : Bool := .json ∈ c.switches

def request (c : CommandLine) : Request :=
  { nodeFile := ⟨(c.text? .nodeFile).getD ""⟩
    limit := (c.text? .limit).bind number?
    skip := c.texts .skip
    offline := c.texts .offline
    sync := .sync ∈ c.switches
    command := c.text? .command
    remoteDirectory := c.text? .remoteDirectory
    experiment := c.text? .experiment
    overrides := c.texts .overrides
    options :=
      { bin := c.text? .bin
        outfile := c.text? .outfile
        asRoot := .asRoot ∈ c.switches } }

end CommandLine

end Fleet
