/-!
# Binary floating point numbers

A number of the 64-bit binary format is a significand below `2 ^ 53` times a power of two, an infinity or
no number at all.  A decimal is read as the nearest of them; of two that are equally near, the one with
the even significand.  All arithmetic is exact, on natural numbers.
-/

namespace Fleet

/-- A number of the 64-bit binary format. -/
inductive Binary64 where
  /-- the significand times two to the exponent -/
  | finite (negative : Bool) (significand : Nat) (exponent : Int)
  | infinite (negative : Bool)
  | nan
  deriving DecidableEq, Inhabited

namespace Binary64

/-- The quotient rounded to the nearest natural number, a half to the even one. -/
def roundQuotient (a b : Nat) : Nat :=
  let q := a / b
  let r := a % b
  if 2 * r < b then q else if b < 2 * r then q + 1 else q + q % 2

def minExponent : Int := -1074

def maxExponent : Int := 971

/-- The exponent at which the quotient of two positive numbers has a significand of 53 bits, or the least
one of the format. -/
def exponentOf (a b : Nat) : Int :=
  let e := (a.log2 : Int) - b.log2 - 52
  let e := if a <<< (-e).toNat < (b <<< e.toNat) <<< 52 then e - 1 else e
  max e minExponent

/-- The number nearest to a quotient of natural numbers with a sign. -/
def ofQuotient (negative : Bool) (a b : Nat) : Binary64 :=
  if a = 0 then .finite negative 0 minExponent
  else
    let e := exponentOf a b
    let m := roundQuotient (a <<< (-e).toNat) (b <<< e.toNat)
    let (m, e) := if m = 1 <<< 53 then (1 <<< 52, e + 1) else (m, e)
    if maxExponent < e then .infinite negative else .finite negative m e

/-- How many decimal digits a number has; zero has none. -/
def digitCount (n : Nat) : Nat :=
  if n = 0 then 0 else (Nat.toDigits 10 n).length

/-- The number nearest to a significand times a power of ten, with a sign.  Beyond the format's range no
power is computed. -/
def ofDecimal (negative : Bool) (significand : Nat) (exponent : Int) : Binary64 :=
  let magnitude := exponent + digitCount significand
  if significand = 0 || magnitude < -330 then .finite negative 0 minExponent
  else if 310 < magnitude then .infinite negative
  else ofQuotient negative (significand * Nat.pow 10 exponent.toNat) (Nat.pow 10 (-exponent).toNat)

/-- Whether two numbers are equal: the zeros are, and so is what is no number. -/
def same : Binary64 → Binary64 → Bool
  | .finite n m e, .finite n' m' e' =>
    (m == 0 && m' == 0) || (n == n' && m == m' && e == e')
  | .infinite n, .infinite n' => n == n'
  | .nan, .nan => true
  | _, _ => false

/-! ### reading decimals -/

/-- The number that decimal digits stand for, after the digits read before. -/
def digitsValue (before : Nat) (digits : List Char) : Nat :=
  digits.foldl (fun n c => 10 * n + (c.toNat - '0'.toNat)) before

/-- The value of an exponent's text: a sign or none, and one digit or more. -/
def readExponent? (s : List Char) : Option Int :=
  let (negative, digits) :=
    match s with
    | '+' :: r => (false, r)
    | '-' :: r => (true, r)
    | _ => (false, s)
  if digits.isEmpty || !digits.all Char.isDigit then none
  else
    let n : Int := digitsValue 0 digits
    some (if negative then -n else n)

/-- The nearest number to a decimal: a sign or none, digits with a point or without, at least one digit,
and an exponent or none. -/
def read? (s : List Char) : Option Binary64 :=
  let (negative, body) :=
    match s with
    | '+' :: r => (false, r)
    | '-' :: r => (true, r)
    | _ => (false, s)
  let (whole, rest) := body.span Char.isDigit
  let (fraction, rest) :=
    match rest with
    | '.' :: r => r.span Char.isDigit
    | _ => ([], rest)
  if whole.isEmpty && fraction.isEmpty then none
  else
    let exponent :=
      match rest with
      | [] => some 0
      | c :: r => if c = 'e' || c = 'E' then readExponent? r else none
    exponent.map fun e =>
      ofDecimal negative (digitsValue (digitsValue 0 whole) fraction) (e - fraction.length)

end Binary64

end Fleet
