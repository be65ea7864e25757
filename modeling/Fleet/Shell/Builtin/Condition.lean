import Fleet.Shell.Builtin.Usage

/-!
# Conditions

The builtin that decides a condition on texts, numbers and files, and tells by its exit status whether it holds.
What a word means depends on the words after it: an operator with nothing to work on is a text like any other.
-/

namespace Fleet.Shell.Builtin

namespace Condition

/-- What a word of a condition is. -/
inductive Role where
  | missing
  | operand
  | unary
  | binary
  | negation
  | conjunction
  | disjunction
  | opening
  | closing
  deriving DecidableEq

def unaryOperators : List String :=
  ["-r", "-w", "-x", "-e", "-f", "-d", "-c", "-b", "-p", "-u", "-g", "-k", "-s", "-t", "-z", "-n", "-h", "-O", "-G",
    "-L", "-S"]

def binaryOperators : List String :=
  ["=", "!=", "<", ">", "-eq", "-ne", "-ge", "-gt", "-le", "-lt", "-nt", "-ot", "-ef"]

/-- What the first of some words is. -/
def role : List String → Role
  | [] => .missing
  | word :: rest =>
    if word ∈ unaryOperators then
      match rest with
      | [] => .operand
      | [_] => .unary
      | next :: _ => if next ∈ binaryOperators then .operand else .unary
    else if word ∈ binaryOperators then .binary
    else if word = "!" then .negation
    else if word = "-a" then .conjunction
    else if word = "-o" then .disjunction
    else if word = "(" then if rest = [] then .operand else .opening
    else if word = ")" then .closing
    else .operand

def fault {α : Type} (word text : String) : Action α := blame (if word = "" then text else word ++ ": " ++ text)

def numberOf (word : String) : Action Int :=
  match Numeral.whole? 10 word with
  | some n => return n
  | none => blame ("Illegal number: " ++ word)

/-- The value of an operator with one operand. -/
def unary (op operand : String) : Action Bool := do
  let d ← here
  let node := d.node (Octets.path operand)
  match op with
  | "-n" => return operand != ""
  | "-z" => return operand == ""
  | "-t" =>
    let _ ← numberOf operand
    return false
  | "-d" => return node.toOption.any (·.isDirectory)
  | "-f" | "-c" | "-s" | "-x" =>
    match node, op with
    | .ok (.file ..), "-f" | .ok (.device _), "-c" | .ok (.directory _), "-s" | .ok (.directory _), "-x" => return true
    | .ok (.file bytes _), "-s" => return !bytes.isEmpty
    | .ok (.file _ isProgram), "-x" => return isProgram
    | _, _ => return false
  | "-e" | "-r" | "-w" | "-O" | "-G" => return node.toOption.isSome
  | _ => return false

/-- The value of an operator between two operands. -/
def binary (a op b : String) : Action Bool := do
  let compare := fun (holds : Int → Int → Bool) => do
    let m ← numberOf a
    let n ← numberOf b
    return holds m n
  match op with
  | "=" => return a == b
  | "!=" => return a != b
  | "<" => return a < b
  | ">" => return b < a
  | "-eq" => compare (· == ·)
  | "-ne" => compare (· != ·)
  | "-lt" => compare (· < ·)
  | "-le" => compare (· ≤ ·)
  | "-gt" => compare (· > ·)
  | "-ge" => compare (· ≥ ·)
  | "-ef" =>
    let d ← here
    match d.find (Octets.path a), d.node (Octets.path a), d.find (Octets.path b), d.node (Octets.path b) with
    | .ok first, .ok _, .ok second, .ok _ => return first.location == second.location
    | _, _, _, _ => return false
  | _ => return false

/-- The value of an operand or of an operator between two, and the words from the last one of it on. -/
def operand (words : List String) : Action (Bool × List String) := do
  let rest := words.tail
  if role rest = .binary then
    let op := rest.headD ""
    match rest.tail with
    | [] => fault op "argument expected"
    | b :: more => return (← binary (words.headD "") op b, b :: more)
  else return (words.headD "" != "", words)

mutual

/-- The value of alternatives, and the words from the last one of them on. -/
def alternatives : Nat → Bool → List String → Action (Bool × List String)
  | 0, _, words => return (false, words)
  | n + 1, isOperand, words => do
    let (value, words) ← all n isOperand words
    if role words.tail = .disjunction then
      let (more, words) ← alternatives n false (words.drop 2)
      return (value || more, words)
    else return (value, words)

/-- The value of conditions that must all hold. -/
def all : Nat → Bool → List String → Action (Bool × List String)
  | 0, _, words => return (false, words)
  | n + 1, isOperand, words => do
    let (value, words) ← if isOperand then operand words else one n words
    if role words.tail = .conjunction then
      let (more, words) ← all n false (words.drop 2)
      return (value && more, words)
    else return (value, words)

/-- The value of a condition that may be negated. -/
def one : Nat → List String → Action (Bool × List String)
  | 0, words => return (false, words)
  | n + 1, words => do
    match role words with
    | .negation =>
      let next := if role words.tail = .missing then words else words.tail
      if role words.tail = .missing then return (true, next)
      else
        let (value, words) ← one n next
        return (!value, words)
    | .missing => return (false, words)
    | .opening =>
      if role words.tail = .closing then return (false, words.tail)
      else
        let (value, words) ← alternatives n false words.tail
        if role words.tail = .closing then return (value, words.tail) else fault "" "closing paren expected"
    | .unary =>
      match words.tail with
      | [] => fault (words.headD "") "argument expected"
      | word :: rest => return (← unary (words.headD "") word, word :: rest)
    | _ => operand words

end

def whole : Nat → Bool → List String → Action Bool
  | 0, _, _ => return false
  | n + 1, isNegated, words => do
    let evaluate := fun (isOperand : Bool) (words : List String) => do
      let (value, rest) ← alternatives (2 * words.length + 2) isOperand words
      match rest with
      | word :: _ :: _ => fault word "unexpected operator"
      | _ => return value != isNegated
    match words with
    | [] => return isNegated
    | [_, op, _] => if op ∈ binaryOperators then evaluate true words else bracketed n words evaluate
    | [_, _, _, _] => bracketed n words evaluate
    | words => evaluate false words
where
  /-- Three or four words in parentheses, or after a negation. -/
  bracketed (n : Nat) (words : List String) (evaluate : Bool → List String → Action Bool) : Action Bool :=
    if words.head? = some "(" ∧ words.getLast? = some ")" then evaluate false words.tail.dropLast
    else if words.head? = some "!" then whole n true words.tail
    else evaluate false words

end Condition

def test (args : List String) : Action Nat := do
  return if ← Condition.whole (args.length + 1) false args then 0 else 1

/-- A condition that a bracket has to close. -/
def bracket (args : List String) : Action Nat :=
  if args.getLast? = some "]" then test args.dropLast else blame "missing ]"

end Fleet.Shell.Builtin
