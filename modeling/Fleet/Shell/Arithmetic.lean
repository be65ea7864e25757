import Fleet.Shell.Numeral
import Fleet.Shell.Token

/-!
# Arithmetic expressions

Expressions of a shell over signed numbers of 64 bits.  A name stands for the number that is the value of the
variable, and for zero if it has none.  An operand that does not count because of `&&`, `||` or `?` is read and
not evaluated.  Assignments are kept in the order in which they are made.
-/

namespace Fleet.Shell.Arithmetic

/-- What is wrong with an expression. -/
inductive Fault where
  | expectingPrimary
  | expectingEnd
  | expectingColon
  | expectingParenthesis
  | divisionByZero
  /-- the value of a variable is no number -/
  | illegalNumber (text : String)
  | readOnly (name : String)
  /-- a quotient is too great -/
  | overflow
  deriving DecidableEq, Inhabited

def Fault.message (expression : String) : Fault → String
  | .illegalNumber text => "Illegal number: " ++ text
  | .readOnly name => name ++ ": is read only"
  | fault =>
    let reason := match fault with
      | .expectingPrimary => "expecting primary"
      | .expectingColon => "expecting ':'"
      | .expectingParenthesis => "expecting ')'"
      | .divisionByZero => "division by zero"
      | _ => "expecting EOF"
    "arithmetic expression: " ++ reason ++ ": \"" ++ expression ++ "\""

/-! ### operations -/

def wrap (n : Int) : Int := Int.bmod n UInt64.size

def ofBool (b : Bool) : Int := if b then 1 else 0

/-- An operation on two numbers as words of 64 bits. -/
def bitwise (f : UInt64 → UInt64 → UInt64) (a b : Int) : Int :=
  wrap (f (.ofInt a) (.ofInt b)).toNat

/-- The binary operators that evaluate both operands, with how strongly they bind. -/
def strength? (op : String) : Option Nat :=
  [("*", 8), ("/", 8), ("%", 8), ("+", 7), ("-", 7), ("<<", 6), (">>", 6), ("<", 5), ("<=", 5), (">", 5), (">=", 5),
    ("==", 4), ("!=", 4), ("&", 3), ("^", 2), ("|", 1)].lookup op

def apply (op : String) (a b : Int) : Except Fault Int :=
  let divide := fun (f : Int → Int → Int) =>
    if b = 0 then .error .divisionByZero
    else if a = Numeral.least ∧ b = -1 then .error .overflow
    else .ok (f a b)
  match op with
  | "==" => .ok (ofBool (a == b))
  | "!=" => .ok (ofBool (a != b))
  | "<=" => .ok (ofBool (a ≤ b))
  | ">=" => .ok (ofBool (a ≥ b))
  | "<" => .ok (ofBool (a < b))
  | ">" => .ok (ofBool (a > b))
  | "|" => .ok (bitwise (· ||| ·) a b)
  | "^" => .ok (bitwise (· ^^^ ·) a b)
  | "&" => .ok (bitwise (· &&& ·) a b)
  | "<<" => .ok (wrap (a * (1 <<< (b % 64).toNat : Nat)))
  | ">>" => .ok (Int.fdiv a (1 <<< (b % 64).toNat : Nat))
  | "+" => .ok (wrap (a + b))
  | "-" => .ok (wrap (a - b))
  | "*" => .ok (wrap (a * b))
  | "/" => divide Int.tdiv
  | _ => divide Int.tmod

/-! ### reading -/

/-- A sign of an expression. -/
inductive Sign where
  | number (n : Int)
  | name (name : String)
  | operator (text : String)
  | ending
  /-- a character that no expression has -/
  | other
  deriving DecidableEq, Inhabited

def operators : List String :=
  ["<<=", ">>=", "&&", "||", "==", "!=", "<=", ">=", "<<", ">>", "*=", "/=", "%=", "+=", "-=", "&=", "^=", "|=",
    "(", ")", "*", "/", "%", "+", "-", "<", ">", "&", "^", "|", "=", "!", "~", "?", ":"]

/-- The sign that a text begins with, and the rest. -/
def sign (s : List Char) : Sign × List Char :=
  let s := s.dropWhile (· ∈ [' ', '\t', '\n'])
  match s with
  | [] => (.ending, [])
  | c :: rest =>
    if c.isDigit then
      match Numeral.unsigned? 0 s with
      | some (n, rest) => (.number (Numeral.clamp n), rest)
      | none => (.other, rest)
    else if isNameStart c then (.name (String.ofList (s.takeWhile isNameChar)), s.dropWhile isNameChar)
    else
      match operators.find? fun op => op.toList.isPrefixOf s with
      | some op => (.operator op, s.drop op.length)
      | none => (.other, rest)

/-- What is known of variables. -/
structure Memory where
  value? : String → Option String
  isReadOnly : String → Bool

/-- How far the reading of an expression has come. -/
structure Progress where
  /-- the sign that is looked at -/
  sign : Sign
  rest : List Char
  /-- the assignments that have been made, the last one first -/
  assigned : List (String × Int)

/-- The evaluation of a part of an expression. -/
abbrev Evaluation := ReaderT Memory (StateT Progress (Except Fault))

def advance : Evaluation Unit := modify fun x =>
  let (next, rest) := sign x.rest
  { x with sign := next, rest }

/-- A sign is passed over if it is the one that is looked at. -/
def accept (op : String) : Evaluation Bool := do
  if (← get).sign = .operator op then
    advance
    return true
  else return false

def lookUp (name : String) : Evaluation Int := do
  match (← get).assigned.lookup name with
  | some n => return n
  | none =>
    let text := ((← read).value? name).getD ""
    match Numeral.whole? 0 text with
    | some n => return n
    | none => throw (.illegalNumber text)

def assign (name : String) (n : Int) : Evaluation Int := do
  if (← read).isReadOnly name then throw (.readOnly name)
  modify fun x => { x with assigned := (name, n) :: x.assigned }
  return n

/-- The operator that an assignment applies before, if an operator is an assignment. -/
def assignment? (op : String) : Option (Option String) :=
  if op = "=" then some none
  else if op ∈ ["*=", "/=", "%=", "+=", "-=", "<<=", ">>=", "&=", "^=", "|="] then some (some (op.dropEnd 1).toString)
  else none

mutual

/-- The value of an operand.  One that does not count has some value. -/
def operand : Nat → Bool → Evaluation Int
  | 0, _ => throw .expectingPrimary
  | n + 1, counts => do
    match (← get).sign with
    | .number value =>
      advance
      return value
    | .name name =>
      advance
      if counts then lookUp name else return 0
    | .operator "(" =>
      advance
      let value ← assigning n counts
      if ← accept ")" then return value else throw .expectingParenthesis
    | .operator "+" =>
      advance
      operand n counts
    | .operator "-" =>
      advance
      return wrap (-(← operand n counts))
    | .operator "!" =>
      advance
      return ofBool ((← operand n counts) == 0)
    | .operator "~" =>
      advance
      return -(← operand n counts) - 1
    | _ => throw .expectingPrimary

/-- The value of an expression of operators that bind at least so strongly, after its first operand. -/
def climb : Nat → Bool → Nat → Int → Evaluation Int
  | 0, _, _, _ => throw .expectingPrimary
  | n + 1, counts, least, left => do
    match (← get).sign with
    | .operator op =>
      match strength? op with
      | some strength =>
        if strength < least then return left
        else
          advance
          let right ← operand n counts
          let right ← climb n counts (strength + 1) right
          let value ← if counts then liftM (apply op left right) else pure right
          climb n counts least value
      | none => return left
    | _ => return left

/-- The value of operands joined by `&&`. -/
def conjunction : Nat → Bool → Evaluation Int
  | 0, _ => throw .expectingPrimary
  | n + 1, counts => do
    let first ← operand n counts
    let first ← climb n counts 0 first
    if ← accept "&&" then
      let second ← conjunction n (counts && first != 0)
      return ofBool (first != 0 && second != 0)
    else return first

/-- The value of operands joined by `||`. -/
def disjunction : Nat → Bool → Evaluation Int
  | 0, _ => throw .expectingPrimary
  | n + 1, counts => do
    let first ← conjunction n counts
    if ← accept "||" then
      let second ← disjunction n (counts && first == 0)
      return ofBool (first != 0 || second != 0)
    else return first

/-- The value of an expression that may choose between two others. -/
def choice : Nat → Bool → Evaluation Int
  | 0, _ => throw .expectingPrimary
  | n + 1, counts => do
    let condition ← disjunction n counts
    if ← accept "?" then
      let positive ← assigning n (counts && condition != 0)
      if !(← accept ":") then throw .expectingColon
      let negative ← choice n (counts && condition == 0)
      return if condition ≠ 0 then positive else negative
    else return condition

/-- The value of an expression that may assign it to a variable. -/
def assigning : Nat → Bool → Evaluation Int
  | 0, _ => throw .expectingPrimary
  | n + 1, counts => do
    let before ← get
    match before.sign with
    | .name name =>
      advance
      let kind := match (← get).sign with
        | .operator op => assignment? op
        | _ => none
      match kind with
      | some op? =>
        advance
        let value ← assigning n counts
        if !counts then return value
        match op? with
        | none => assign name value
        | some op =>
          let old ← lookUp name
          let value ← liftM (apply op old value)
          assign name value
      | none =>
        set before
        choice n counts
    | _ => choice n counts

end

/-- The value of an expression, and the assignments that it makes. -/
def evaluate (memory : Memory) (s : List Char) : Except Fault (Int × List (String × Int)) := do
  let whole : Evaluation Int := do
    advance
    let value ← assigning (16 * s.length + 64) true
    if (← get).sign = .ending then return value else throw .expectingEnd
  let (value, after) ← (whole.run memory).run ⟨.ending, s, []⟩
  return (value, after.assigned.reverse)

end Fleet.Shell.Arithmetic
