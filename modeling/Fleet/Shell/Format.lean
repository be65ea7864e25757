import Fleet.Binary64.Shortest
import Fleet.Shell.Escape
import Fleet.Shell.Numeral

/-!
# Formats

A format is put out with its conversions replaced by arguments, and is used again as long as arguments are left.
Numbers are written in a base or as decimals; a decimal is that of the exact binary number, rounded to the nearest
one, of two equally near ones to the even one.
-/

namespace Fleet.Shell.Format

open Text (Bytes)

/-- One conversion of a format. -/
structure Conversion where
  flags : List Char
  width : Nat
  precision : Option Nat
  letter : Char

namespace Conversion

def has (c : Conversion) (flag : Char) : Bool := c.flags.contains flag

/-- A sign or a base, and what follows it, in the width of the conversion. -/
def fit (c : Conversion) (mayFill : Bool) (start body : List Char) : List Char :=
  let missing := c.width - (start.length + body.length)
  if c.has '-' then start ++ body ++ List.replicate missing ' '
  else if mayFill ∧ c.has '0' then start ++ List.replicate missing '0' ++ body
  else List.replicate missing ' ' ++ start ++ body

def text (c : Conversion) (s : List Char) : List Char := c.fit false [] (match c.precision with
  | some n => s.take n
  | none => s)

/-- The digits of a number, as many as the conversion wants.  Zero has no digit where none is wanted. -/
def digits (c : Conversion) (base n : Nat) : List Char :=
  let found := if n = 0 ∧ c.precision = some 0 then [] else Nat.toDigits base n
  List.replicate (c.precision.getD 1 - found.length) '0' ++ found

def sign (c : Conversion) (isNegative : Bool) : List Char :=
  if isNegative then ['-'] else if c.has '+' then ['+'] else if c.has ' ' then [' '] else []

def signed (c : Conversion) (n : Int) : List Char :=
  c.fit c.precision.isNone (c.sign (decide (n < 0))) (c.digits 10 n.natAbs)

/-- A whole number without a sign, by the letter of the conversion. -/
def unsigned (c : Conversion) (n : Nat) : List Char :=
  let fit := c.fit c.precision.isNone
  match c.letter with
  | 'o' =>
    let found := c.digits 8 n
    fit [] (if c.has '#' ∧ found.head? ≠ some '0' then '0' :: found else found)
  | 'x' => fit (if c.has '#' ∧ n ≠ 0 then ['0', 'x'] else []) (c.digits 16 n)
  | 'X' => fit (if c.has '#' ∧ n ≠ 0 then ['0', 'X'] else []) ((c.digits 16 n).map Char.toUpper)
  | _ => fit [] (c.digits 10 n)

end Conversion

/-! ### decimals -/

/-- A quotient of numbers times a power of ten, rounded. -/
def scaled (num den : Nat) (exponent : Int) : Nat :=
  Binary64.roundQuotient (num * Nat.pow 10 exponent.toNat) (den * Nat.pow 10 (-exponent).toNat)

/-- The exponent of the first digit of a quotient when it is rounded to so many more digits, and the digits. -/
def leading (num den precision : Nat) : Int × Nat :=
  if num = 0 then (0, 0)
  else
    let exponent := (Binary64.Ratio.mk num den).magnitude - 1
    let n := scaled num den (precision - exponent)
    if n = Nat.pow 10 (precision + 1) then (exponent + 1, n / 10) else (exponent, n)

/-- Digits with a point before so many of them; a point with nothing after it may be kept. -/
def pointed (digits : List Char) (places : Nat) (keepsPoint : Bool) : List Char :=
  let digits := List.replicate (places + 1 - digits.length) '0' ++ digits
  let whole := digits.take (digits.length - places)
  if places = 0 then if keepsPoint then whole ++ ['.'] else whole
  else whole ++ '.' :: digits.drop whole.length

def fixed (num den precision : Nat) (keepsPoint : Bool) : List Char :=
  pointed (Nat.toDigits 10 (scaled num den precision)) precision keepsPoint

/-- The text of an exponent, which has two digits at least. -/
def exponentText (exponent : Int) : List Char :=
  let digits := Nat.toDigits 10 exponent.natAbs
  'e' :: (if exponent < 0 then '-' else '+') :: List.replicate (2 - digits.length) '0' ++ digits

def scientific (num den precision : Nat) (keepsPoint : Bool) : List Char :=
  let (exponent, n) := leading num den precision
  pointed (Nat.toDigits 10 n) precision keepsPoint ++ exponentText exponent

/-- A decimal without the zeros at its end, and without a point that nothing follows then. -/
def trimmed (s : List Char) : List Char :=
  if s.contains '.' then
    let rest := s.reverse.dropWhile (· == '0')
    (if rest.head? = some '.' then rest.drop 1 else rest).reverse
  else s

/-- A decimal with as many digits as are wanted, with an exponent if it is long otherwise. -/
def general (num den precision : Nat) (isWhole : Bool) : List Char :=
  let precision := max 1 precision
  let (exponent, _) := leading num den (precision - 1)
  if -4 ≤ exponent ∧ exponent < precision then
    let s := fixed num den (precision - 1 - exponent).toNat isWhole
    if isWhole then s else trimmed s
  else
    let s := scientific num den (precision - 1) isWhole
    if isWhole then s
    else
      let (body, power) := s.span (· != 'e')
      trimmed body ++ power

/-- A number of base 16 with a binary exponent, with as many digits as it needs or as are wanted. -/
def hexadecimal (significand : Nat) (exponent : Int) (precision : Option Nat) (keepsPoint : Bool) : List Char :=
  let power := fun (e : Int) => 'p' :: (if e < 0 then '-' else '+') :: Nat.toDigits 10 e.natAbs
  if significand = 0 then pointed ['0'] (precision.getD 0) keepsPoint ++ power 0
  else
    let shift := 52 - significand.log2
    let n := significand <<< shift
    let e := exponent - shift + 52
    match precision with
    | none =>
      let digits := Nat.toDigits 16 n
      let fraction := ((digits.drop 1).reverse.dropWhile (· == '0')).reverse
      pointed (digits.take 1 ++ fraction) fraction.length keepsPoint ++ power e
    | some p =>
      let n := if p < 13 then Binary64.roundQuotient n (Nat.pow 16 (13 - p)) else n * Nat.pow 16 (p - 13)
      pointed (Nat.toDigits 16 n) p keepsPoint ++ power e

namespace Conversion

/-- A number of the 64-bit binary format, by the letter of the conversion. -/
def decimal (c : Conversion) (x : Binary64) : List Char :=
  let upper := fun (s : List Char) => if c.letter.isUpper then s.map Char.toUpper else s
  let precision := c.precision.getD 6
  let keepsPoint := c.has '#'
  upper (match x with
    | .nan => c.fit false (c.sign false) ['n', 'a', 'n']
    | .infinite negative => c.fit false (c.sign negative) ['i', 'n', 'f']
    | .finite negative significand exponent =>
      let num := significand <<< exponent.toNat
      let den := 1 <<< (-exponent).toNat
      match c.letter.toLower with
      | 'f' => c.fit true (c.sign negative) (fixed num den precision keepsPoint)
      | 'e' => c.fit true (c.sign negative) (scientific num den precision keepsPoint)
      | 'a' => c.fit true (c.sign negative ++ ['0', 'x']) (hexadecimal significand exponent c.precision keepsPoint)
      | _ => c.fit true (c.sign negative) (general num den precision keepsPoint))

end Conversion

/-! ### reading numbers -/

/-- The power that a text begins with, after a letter and perhaps a sign, and the rest. -/
def power? (letter : Char) (s : List Char) : Option (Int × List Char) :=
  match s with
  | c :: rest =>
    if c.toLower ≠ letter then none
    else
      let (isNegative, rest) := match rest with
        | '-' :: rest => (true, rest)
        | '+' :: rest => (false, rest)
        | rest => (false, rest)
      match Numeral.digits 10 rest with
      | ([], _) => none
      | (digits, rest) =>
        let n : Int := Numeral.valueOf 10 0 digits
        some (if isNegative then -n else n, rest)
  | [] => none

/-- The digits that a text begins with, with a point among them or not: their value, how many follow the point, and
the rest. -/
def mantissa? (base : Nat) (s : List Char) : Option (Nat × Nat × List Char) :=
  let (whole, rest) := Numeral.digits base s
  let (fraction, rest) := match rest with
    | '.' :: more =>
      let (fraction, after) := Numeral.digits base more
      if whole = [] ∧ fraction = [] then ([], rest) else (fraction, after)
    | rest => ([], rest)
  if whole = [] ∧ fraction = [] then none
  else some (Numeral.valueOf base (Numeral.valueOf base 0 whole) fraction, fraction.length, rest)

/-- The number without a sign that a text begins with, and the rest. -/
def magnitude? (isNegative : Bool) (s : List Char) : Option (Binary64 × List Char) :=
  let lower := s.map Char.toLower
  let named := fun (name : String) => name.toList.isPrefixOf lower
  if named "infinity" then some (.infinite isNegative, s.drop 8)
  else if named "inf" then some (.infinite isNegative, s.drop 3)
  else if named "nan" then some (.nan, s.drop 3)
  else
    let decimal : Option (Binary64 × List Char) :=
      (mantissa? 10 s).map fun (n, places, rest) =>
        let (exponent, rest) := (power? 'e' rest).getD (0, rest)
        (.ofDecimal isNegative n (exponent - places), rest)
    match lower with
    | '0' :: 'x' :: _ =>
      match mantissa? 16 (s.drop 2) with
      | some (n, places, rest) =>
        let (exponent, rest) := (power? 'p' rest).getD (0, rest)
        let e := max (-2000) (min 2000 (exponent - 4 * places))
        some (.ofQuotient isNegative (n <<< e.toNat) (1 <<< (-e).toNat), rest)
      | none => decimal
    | _ => decimal

/-- The number that a text begins with after blanks, and the rest. -/
def number? (s : List Char) : Option (Binary64 × List Char) :=
  match s.dropWhile Numeral.isBlank with
  | '-' :: rest => magnitude? true rest
  | '+' :: rest => magnitude? false rest
  | rest => magnitude? false rest

/-! ### whole formats -/

/-- What is wrong with an argument that is to be a number. -/
inductive Doubt where
  | noNumber
  | onlyPartly
  | outOfRange
  deriving DecidableEq

/-- What a format gives one after the other: bytes, and doubts about arguments. -/
inductive Printed where
  | bytes (bytes : Bytes)
  | doubt (argument : String) (doubt : Doubt)

namespace Printed

/-- The bytes among what a format gives. -/
def bytesOf (printed : List Printed) : Bytes :=
  printed.flatMap fun x =>
    match x with
    | .bytes b => b
    | .doubt .. => []

/-- The doubts among what a format gives. -/
def doubtsOf (printed : List Printed) : List (String × Doubt) :=
  printed.filterMap fun x =>
    match x with
    | .bytes _ => none
    | .doubt argument why => some (argument, why)

end Printed

/-- What has been given, and what is left of the arguments. -/
structure Output where
  /-- what has been given, the last first -/
  printed : List Printed
  arguments : List String

/-- Why a format is not gone on with. -/
inductive Stop where
  /-- an argument has ended the output -/
  | ended
  | fault (text : String)

abbrev Printing := ExceptT Stop (StateM Output)

def write (b : Bytes) : Printing Unit := modify fun x => { x with printed := .bytes b :: x.printed }

def argument? : Printing (Option String) := modifyGet fun x => (x.arguments.head?, { x with arguments := x.arguments.tail })

def question (argument : String) (doubt : Doubt) : Printing Unit :=
  modify fun x => { x with printed := .doubt argument doubt :: x.printed }

/-- What is wrong with an argument of which a part is no number. -/
def check (argument : String) (isRead : Bool) (rest : List Char) : Printing Unit :=
  if rest = [] then pure ()
  else question argument (if isRead then .onlyPartly else .noNumber)

/-- The code of the character after a quote, if an argument begins with one. -/
def code? (s : List Char) : Option Nat :=
  match s with
  | '"' :: rest | '\'' :: rest => some ((rest.head?.map Char.toNat).getD 0)
  | _ => none

/-- The next argument as a whole number, between bounds. -/
def wholeArgument (least greatest : Int) : Printing Int := do
  match ← argument? with
  | none => return 0
  | some argument =>
    match code? argument.toList with
    | some code => return code
    | none =>
      match Numeral.signed? 0 argument.toList with
      | none =>
        check argument false argument.toList
        return 0
      | some (n, rest) =>
        check argument true rest
        if rest = [] ∧ (n < least ∨ greatest < n) then question argument .outOfRange
        return max least (min greatest n)

def signedArgument : Printing Int := wholeArgument Numeral.least Numeral.greatest

/-- The next argument as a number without a sign; negative ones count from the greatest on. -/
def unsignedArgument : Printing Nat := do
  let n ← wholeArgument (-(UInt64.size : Int) + 1) (UInt64.size - 1)
  return (n % (UInt64.size : Int)).toNat

def decimalArgument : Printing Binary64 := do
  match ← argument? with
  | none => return .ofDecimal false 0 0
  | some argument =>
    match code? argument.toList with
    | some code => return .ofDecimal false code 0
    | none =>
      match number? argument.toList with
      | some (x, rest) =>
        check argument true rest
        return x
      | none =>
        check argument false argument.toList
        return .ofDecimal false 0 0

/-- A number that stands in a format or in the next argument, and the rest of the format. -/
def size (s : List Char) : Printing (Option Int × List Char) := do
  match s with
  | '*' :: rest => return (some (← signedArgument), rest)
  | s =>
    let (digits, rest) := Numeral.digits 10 s
    return (if digits = [] then none else some (Numeral.valueOf 10 0 digits : Nat), rest)

/-- The conversion that follows a percent sign, with its text, and the rest of the format. -/
def conversion (s : List Char) : Printing (Conversion × List Char × List Char) := do
  let (flags, rest) := s.span (· ∈ ['#', '-', '+', ' ', '0'])
  let (width, rest) ← size rest
  let (precision, rest) ← match rest with
    | '.' :: rest => do
      let (precision, rest) ← size rest
      pure (some (precision.getD 0), rest)
    | rest => pure (none, rest)
  match rest with
  | [] => throw (.fault "missing format character")
  | letter :: rest =>
    let width := width.getD 0
    return (⟨if width < 0 then '-' :: flags else flags, width.natAbs,
      (precision.filter (0 ≤ ·)).map Int.toNat, letter⟩, s.take (s.length - rest.length), rest)

/-- A conversion with the arguments that it takes. -/
def convert (c : Conversion) (spelling : List Char) : Printing Unit := do
  let put := fun (s : List Char) => write (Octets.bytesOf s)
  if c.letter ∈ ['d', 'i'] then put (c.signed (← signedArgument))
  else if c.letter ∈ ['o', 'u', 'x', 'X'] then put (c.unsigned (← unsignedArgument))
  else if c.letter ∈ ['e', 'E', 'f', 'F', 'g', 'G', 'a', 'A'] then put (c.decimal (← decimalArgument))
  else if c.letter = 'c' then put ({ c with precision := none }.text [(((← argument?).getD "").toList.head?).getD '\x00'])
  else if c.letter = 's' then put (c.text ((← argument?).getD "").toList)
  else if c.letter = 'b' then
    let (bytes, goesOn) := Escape.bytes .words ((← argument?).getD "")
    put (c.text (Octets.chars bytes))
    if !goesOn then throw .ended
  else throw (.fault (String.ofList ('%' :: spelling) ++ ": invalid directive"))

def once : Nat → List Char → Printing Unit
  | 0, _ | _, [] => pure ()
  | n + 1, '%' :: '%' :: rest => do
    write [37]
    once n rest
  | n + 1, '%' :: rest => do
    let (c, spelling, rest) ← conversion rest
    convert c spelling
    once n rest
  | n + 1, '\\' :: rest => do
    let size := if rest.head?.any Escape.isOctal then ((rest.take 3).takeWhile Escape.isOctal).length else min 1 rest.length
    write (Escape.bytes .format (String.ofList ('\\' :: rest.take size))).1
    once n (rest.drop size)
  | n + 1, s => do
    let (plain, rest) := s.span fun c => c != '%' && c != '\\'
    write (Octets.bytesOf plain)
    once n rest

/-- A format is put out as long as arguments are left that it takes. -/
def again (format : List Char) : Nat → Printing Unit
  | 0 => pure ()
  | n + 1 => do
    let before := (← get).arguments.length
    once (format.length + 1) format
    let left := (← get).arguments.length
    if 0 < left ∧ left < before then again format n

/-- What a format with arguments gives, and what is wrong with the format. -/
def print (format : String) (arguments : List String) : List Printed × Option String :=
  let (result, x) := (again format.toList (arguments.length + 1)).run.run ⟨[], arguments⟩
  let fault := match result with
    | .error (.fault text) => some text
    | _ => none
  (x.printed.reverse, fault)

end Fleet.Shell.Format
