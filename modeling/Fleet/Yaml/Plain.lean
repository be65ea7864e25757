import Fleet.Yaml.Value
import Fleet.Yaml.Char

/-!
# What plain scalars mean

A scalar without quotes and tag is null, a boolean, an integer, a real number or a text, whichever is the
first that its text fits.  Decimal digits behind a needless zero are text.  Integers of more than 64 bits
fit nothing as long as they have at most 128, and are real numbers beyond that.
-/

namespace Fleet.Yaml

def isNull (s : String) : Bool :=
  s = "~" || s = "null" || s = "Null" || s = "NULL"

def boolean? (s : String) : Option Bool :=
  if s = "true" || s = "True" || s = "TRUE" then some true
  else if s = "false" || s = "False" || s = "FALSE" then some false
  else none

/-! ### integers -/

/-- Whether a text is a sign or none and decimal digits behind a needless zero. -/
def isZeroPadded (s : List Char) : Bool :=
  let digits :=
    match s with
    | '+' :: r | '-' :: r => r
    | _ => s
  1 < digits.length && digits.head? = some '0' && digits.all Char.isDigit

/-- The number that digits of a radix stand for; at least one is needed. -/
def radixNumber? (radix : Nat) (digits : List Char) : Option Nat :=
  if digits.isEmpty then none
  else
    digits.foldlM
      (fun n c => (hexValue? c).bind fun d => if d < radix then some (radix * n + d) else none) 0

/-- The number behind a mark for its radix, or in decimal. -/
def markedNumber? (s : List Char) : Option Nat :=
  match s with
  | '0' :: 'x' :: r => radixNumber? 16 r
  | '0' :: 'o' :: r => radixNumber? 8 r
  | '0' :: 'b' :: r => radixNumber? 2 r
  | _ => radixNumber? 10 s

/-- The natural number that a text spells, with a plus sign or without. -/
def natural? (s : List Char) : Option Nat :=
  if isZeroPadded s then none
  else
    match s with
    | '+' :: r => markedNumber? r
    | _ => markedNumber? s

def integer? (s : List Char) : Option Int :=
  if isZeroPadded s then none
  else
    match s with
    | '-' :: r => (markedNumber? r).map fun n => -(n : Int)
    | _ => (natural? s).map fun n => (n : Int)

def naturalBelow? (limit : Nat) (s : String) : Option Nat :=
  (natural? s.toList).filter (· < limit)

/-- Whether an integer has at most so many bits: as a word without a sign, or with one if it is
negative. -/
def fits (bits : Nat) (n : Int) : Bool :=
  -((1 <<< (bits - 1) : Nat) : Int) ≤ n && n < (1 <<< bits : Nat)

/-! ### real numbers -/

/-- The real number that a text spells; a decimal beyond the range is none. -/
def real? (s : String) : Option Binary64 :=
  if s ∈ [".inf", ".Inf", ".INF", "+.inf", "+.Inf", "+.INF"] then some (.infinite false)
  else if s ∈ ["-.inf", "-.Inf", "-.INF"] then some (.infinite true)
  else if s ∈ [".nan", ".NaN", ".NAN"] then some .nan
  else
    match Binary64.read? s.toList with
    | some (.finite negative significand exponent) => some (.finite negative significand exponent)
    | _ => none

/-! ### all plain scalars -/

/-- The integer that a text spells, if a value can hold it; none at all means that the text is something
else. -/
def integerValue? (s : String) : Option (Option Value) :=
  match integer? s.toList with
  | some n =>
    if fits 64 n then some (some (.number (.integer n)))
    else if fits 128 n then some none
    else none
  | none => none

/-- What the text of a plain scalar means, if a value can hold it. -/
def plainValue? (s : String) : Option Value :=
  if s = "" || isNull s then some .null
  else
    match boolean? s with
    | some b => some (.bool b)
    | none =>
      match integerValue? s with
      | some v => v
      | none =>
        match (if isZeroPadded s.toList then none else real? s) with
        | some x => some (.number (.real x))
        | none => some (.text s)

end Fleet.Yaml
