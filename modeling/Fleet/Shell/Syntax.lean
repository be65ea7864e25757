/-!
# Shell commands

The commands of a POSIX shell as data.  A word is a list of parts, each of which is quoted or not: quoted parts
are neither split into fields nor read as patterns.
-/

namespace Fleet.Shell

/-- What a parameter expansion names. -/
inductive Parameter where
  | named (name : String)
  | argument (position : Nat)
  /-- how many arguments there are -/
  | count
  /-- all arguments as one text -/
  | all
  /-- each argument for itself -/
  | each
  /-- the exit status of the last command -/
  | status
  /-- the number of the shell's process -/
  | shell
  /-- the number of the last background process -/
  | background
  /-- the options of the shell -/
  | options
  deriving DecidableEq, Inhabited

/-- What is done about a parameter that has no value. -/
inductive Fallback where
  | substitute
  | assign
  | complain
  /-- a text in place of any value that is there -/
  | replace
  deriving DecidableEq, Inhabited

/-- How a redirection uses its target. -/
inductive Mode where
  | read
  | write
  /-- a file that is there is written over in any case -/
  | overwrite
  | append
  | readWrite
  /-- the target is another descriptor, or `-` to close this one -/
  | duplicate
  /-- the target is the text that is read -/
  | document
  /-- output and messages both go to the target -/
  | writeBoth
  | appendBoth
  deriving DecidableEq, Inhabited

mutual

/-- A part of a word.  A quoted text may be empty: then it still makes a field. -/
inductive Part where
  | text (isQuoted : Bool) (chars : List Char)
  | parameter (isQuoted : Bool) (parameter : Parameter) (modifier : Modifier)
  | arithmetic (isQuoted : Bool) (body : List Part)
  /-- what a command puts out -/
  | output (isQuoted : Bool) (command : Command)

/-- What is done with the value of a parameter. -/
inductive Modifier where
  | plain
  | length
  /-- another text, if there is no value, or if it is empty too -/
  | fallback (kind : Fallback) (orEmpty : Bool) (word : List Part)
  /-- the value without its shortest or longest beginning or end of a pattern -/
  | cut (atEnd : Bool) (isLongest : Bool) (pattern : List Part)
  /-- something that no shell knows, which is told when the word is expanded -/
  | unknown

/-- A change of where a descriptor leads. -/
inductive Redirection where
  | mk (descriptor : Nat) (mode : Mode) (target : List Part)

/-- A command. -/
inductive Command where
  /-- assignments, the words of a command line, and redirections -/
  | simple (line : Nat) (assignments : List (String × List Part)) (words : List (List Part))
      (redirections : List Redirection)
  | pipeline (stages : List Command)
  | negated (command : Command)
  | andThen (first second : Command)
  | orElse (first second : Command)
  | sequence (first second : Command)
  | background (command : Command)
  | subshell (line : Nat) (command : Command) (redirections : List Redirection)
  | branch (condition positive : Command) (negative : Option Command)
  | loop (isUntil : Bool) (condition body : Command)
  /-- once for each field of the words, or for each argument -/
  | forEach (line : Nat) (name : String) (words : Option (List (List Part))) (body : Command)
  | select (line : Nat) (subject : List Part) (arms : List (List (List Part) × Command))
  | define (name : String) (body : Command)
  | redirected (line : Nat) (command : Command) (redirections : List Redirection)
  /-- no command at all -/
  | empty

end

instance : Inhabited Part := ⟨.text false []⟩
instance : Inhabited Command := ⟨.empty⟩

abbrev Word := List Part

namespace Word

/-- A text before a word, joined with a part of the same quoting. -/
def cons (isQuoted : Bool) (chars : List Char) : Word → Word
  | .text q more :: rest => if q = isQuoted then .text q (chars ++ more) :: rest else .text isQuoted chars :: .text q more :: rest
  | rest => .text isQuoted chars :: rest

/-- The text of a word that has only texts as parts. -/
def literal? : Word → Option (List Char)
  | [] => some []
  | .text _ chars :: rest => (literal? rest).map (chars ++ ·)
  | _ :: _ => none

/-- The text of a word without quotes and expansions. -/
def bare? : Word → Option String
  | [.text false chars] => some (String.ofList chars)
  | _ => none

end Word

end Fleet.Shell
