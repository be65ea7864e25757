import Fleet.Shell.Action
import Fleet.Shell.Numeral

/-!
# How builtins are called

The options and the numbers among the arguments of builtins, and what a shell says of wrong ones.
-/

namespace Fleet.Shell.Builtin

/-- The options that arguments begin with, each with its value, and the operands.  The letters of the options that
have values stand before colons. -/
def options (letters : List Char) : List String → Action (List (Char × String) × List String)
  | [] => return ([], [])
  | word :: rest =>
    match word.toList with
    | ['-', '-'] => return ([], rest)
    | '-' :: c :: more => do
      let hasValue := fun (c : Char) => (letters.dropWhile (· ≠ c)).tail.head? == some ':'
      let plain := (c :: more).takeWhile fun c => letters.contains c && c != ':' && !hasValue c
      let found := plain.map (·, "")
      match (c :: more).drop plain.length with
      | [] =>
        let (others, operands) ← options letters rest
        return (found ++ others, operands)
      | c :: value =>
        if !letters.contains c || c == ':' then blame ("Illegal option -" ++ String.singleton c)
        else
          match value, rest with
          | [], [] => blame ("No arg for -" ++ String.singleton c ++ " option")
          | [], word :: rest =>
            let (others, operands) ← options letters rest
            return (found ++ (c, word) :: others, operands)
          | value, rest =>
            let (others, operands) ← options letters rest
            return (found ++ (c, String.ofList value) :: others, operands)
    | _ => return ([], word :: rest)

def operands (args : List String) : Action (List String) := return (← options [] args).2

def number (word : String) : Action Nat :=
  match Numeral.count? word with
  | some n => return n
  | none => blame ("Illegal number: " ++ word)

def assigned (argument : String) : String × Option String :=
  match argument.toList.span (· != '=') with
  | (name, _ :: value) => (String.ofList name, some (String.ofList value))
  | (name, []) => (String.ofList name, none)

/-- Characters in quotes: single quotes stand between double ones, and all else between single ones. -/
def quotedChars : Nat → List Char → List Char
  | 0, _ => []
  | n + 1, s =>
    let (plain, rest) := s.span (· != '\'')
    let (quotes, rest) := rest.span (· == '\'')
    '\'' :: plain ++ ['\''] ++ (if quotes = [] then [] else '"' :: quotes ++ ['"']) ++
      if rest = [] then [] else quotedChars n rest

/-- A text in quotes, as the shell would read it again. -/
def quoted (text : String) : String := String.ofList (quotedChars (text.length + 1) text.toList)

end Fleet.Shell.Builtin
