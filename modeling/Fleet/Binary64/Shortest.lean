import Fleet.Binary64

/-!
# The shortest decimal

A finite number is written with the fewest decimal digits that read back as it, and of those decimals with
the nearest; an exact tie goes to the even last digit.  For one digit, two, and so on, the two neighbours
of the number on that decimal grid are tried.  Numbers from `1e-5` up to `1e16` are written with a point
and at least one digit after it, all others with an exponent.
-/

namespace Fleet.Binary64

/-! ### the digits -/

/-- A positive rational number. -/
structure Ratio where
  num : Nat
  den : Nat

/-- A natural number times a power of two. -/
def Ratio.ofDyadic (n : Nat) (exponent : Int) : Ratio :=
  ⟨n <<< exponent.toNat, 1 <<< (-exponent).toNat⟩

/-- The number times a power of ten. -/
def Ratio.shift (r : Ratio) (exponent : Int) : Ratio :=
  ⟨r.num * Nat.pow 10 exponent.toNat, r.den * Nat.pow 10 (-exponent).toNat⟩

/-- The place of the first digit: the least power of ten above the number. -/
def Ratio.magnitude (r : Ratio) : Int :=
  if r.den ≤ r.num then digitCount (r.num / r.den)
  else 1 - (digitCount ((r.den - 1) / r.num) : Int)

/-- The numbers that read as a finite number: the lower end, the upper end, and whether the ends
belong to them. -/
def interval (significand : Nat) (exponent : Int) : Ratio × Ratio × Bool :=
  let below := if significand = 1 <<< 52 ∧ minExponent < exponent then 1 else 2
  (.ofDyadic (4 * significand - below) (exponent - 2), .ofDyadic (4 * significand + 2) (exponent - 2),
    significand % 2 = 0)

/-- Whether a natural number lies between two rationals. -/
def Ratio.admits (low high : Ratio) (ends : Bool) (n : Nat) : Bool :=
  if ends then low.num ≤ n * low.den && n * high.den ≤ high.num
  else low.num < n * low.den && n * high.den < high.num

/-- The nearer admitted neighbour of a number on a grid, if one is admitted. -/
def neighbour? (value low high : Ratio) (ends : Bool) : Option Nat :=
  let n := value.num / value.den
  let r := value.num % value.den
  let lower := low.admits high ends n
  let upper := low.admits high ends (n + 1)
  if lower && (r = 0 || !upper || 2 * r < value.den || (2 * r = value.den && n % 2 = 0)) then some n
  else if upper then some (n + 1)
  else none

/-- The shortest decimal, found among those with at least so many digits, as digits and a power of ten. -/
def shortestFrom (value low high : Ratio) (ends : Bool) (magnitude : Int) : Nat → Nat → Nat × Int
  | 0, digits => (value.num / value.den, digits)
  | fuel + 1, digits =>
    let place := magnitude - digits
    match neighbour? (value.shift (-place)) (low.shift (-place)) (high.shift (-place)) ends with
    | some n => (n, place)
    | none => shortestFrom value low high ends magnitude fuel (digits + 1)

/-- A positive number without its trailing decimal zeros, and the power of ten they stand for. -/
def stripZeros : Nat → Nat → Int → Nat × Int
  | 0, n, place => (n, place)
  | fuel + 1, n, place =>
    if n % 10 = 0 then stripZeros fuel (n / 10) (place + 1) else (n, place)

/-- The shortest decimal of a positive finite number: digits, the last of which is not zero, times a power
of ten.  Seventeen digits always suffice. -/
def shortest (significand : Nat) (exponent : Int) : Nat × Int :=
  let value := Ratio.ofDyadic significand exponent
  let (low, high, ends) := interval significand exponent
  let (n, place) := shortestFrom value low high ends value.magnitude 17 1
  stripZeros 20 n place

/-! ### the text -/

/-- Numbers below ten to this power are written without an exponent. -/
def pointLimit : Int := 16

/-- Numbers below one are written without an exponent if fewer zeros than this follow the point. -/
def zeroLimit : Int := 5

/-- The text of digits times a power of ten. -/
def layout (digits : List Char) (place : Int) : List Char :=
  let point := digits.length + place
  if 0 ≤ place && point ≤ pointLimit then
    digits ++ List.replicate place.toNat '0' ++ ['.', '0']
  else if 0 < point && point ≤ pointLimit then
    digits.take point.toNat ++ '.' :: digits.drop point.toNat
  else if -zeroLimit < point && point ≤ 0 then
    '0' :: '.' :: List.replicate (-point).toNat '0' ++ digits
  else
    let fraction := if digits.length = 1 then [] else '.' :: digits.drop 1
    digits.take 1 ++ fraction ++ 'e' :: (toString (point - 1)).toList

def text : Binary64 → String
  | .nan => ".nan"
  | .infinite false => ".inf"
  | .infinite true => "-.inf"
  | .finite negative significand exponent =>
    let sign := if negative then "-" else ""
    if significand = 0 then sign ++ "0.0"
    else
      let (digits, place) := shortest significand exponent
      sign ++ String.ofList (layout (Nat.toDigits 10 digits) place)

end Fleet.Binary64
