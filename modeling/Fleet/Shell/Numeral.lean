/-!
# Numerals

Whole numbers as the shell and its programs read them: blanks, a sign or none, and digits in a base that a prefix
may tell.  Numbers have 64 bits; a numeral beyond them stands for the nearest of them, or is refused.
-/

namespace Fleet.Shell.Numeral

def greatest : Int := 9223372036854775807

def least : Int := -9223372036854775808

def clamp (n : Int) : Int := max least (min greatest n)

def isWithin (n : Int) : Bool := least ≤ n && n ≤ greatest

/-- Blanks that may stand before and after a number. -/
def isBlank (c : Char) : Bool := c == ' ' || ('\t' ≤ c && c ≤ '\r')

/-- The value of a digit in a base up to 16. -/
def digit? (base : Nat) (c : Char) : Option Nat :=
  let value :=
    if c.isDigit then c.toNat - '0'.toNat
    else if 'a' ≤ c ∧ c ≤ 'f' then c.toNat - 'a'.toNat + 10
    else if 'A' ≤ c ∧ c ≤ 'F' then c.toNat - 'A'.toNat + 10
    else base
  if value < base then some value else none

def valueOf (base before : Nat) (digits : List Char) : Nat :=
  digits.foldl (fun n c => n * base + (digit? base c).getD 0) before

/-- The digits of a base that a text begins with, and the rest. -/
def digits (base : Nat) (s : List Char) : List Char × List Char := s.span fun c => (digit? base c).isSome

/-- The number without a sign that a text begins with, in a base or, if that is 0, in the base that its prefix
tells, and the rest. -/
def unsigned? (base : Nat) (s : List Char) : Option (Nat × List Char) :=
  let plain := fun (base : Nat) (s : List Char) =>
    match digits base s with
    | ([], _) => none
    | (found, rest) => some (valueOf base 0 found, rest)
  if base ≠ 0 then plain base s
  else
    match s with
    | '0' :: x :: rest =>
      if x = 'x' ∨ x = 'X' then (plain 16 rest) <|> some (0, x :: rest) else plain 8 s
    | _ => plain 10 s

/-- The number that a text begins with after blanks, and the rest. -/
def signed? (base : Nat) (s : List Char) : Option (Int × List Char) :=
  match s.dropWhile isBlank with
  | '-' :: rest => (unsigned? base rest).map fun (n, rest) => (-(n : Int), rest)
  | '+' :: rest => (unsigned? base rest).map fun (n, rest) => ((n : Int), rest)
  | rest => (unsigned? base rest).map fun (n, rest) => ((n : Int), rest)

/-- The number that a whole text is.  In a base that is not told by a prefix there must be digits. -/
def whole? (base : Nat) (text : String) : Option Int :=
  let s := text.toList
  match signed? base s with
  | some (n, rest) => if rest.all isBlank ∧ isWithin n then some n else none
  | none => if base = 0 ∧ s.all isBlank then some 0 else none

/-- The number from 0 on that a decimal text is, if it is not too great to count with. -/
def count? (text : String) : Option Nat :=
  (whole? 10 text).bind fun n => if 0 ≤ n ∧ n < 1 <<< 31 then some n.toNat else none

end Fleet.Shell.Numeral
