import Fleet.Shell.Octets

/-!
# Escapes

Backslash sequences in the texts that programs put out.  Each stands for one byte.  A sequence may also end the
whole output.
-/

namespace Fleet.Shell.Escape

open Text (Bytes)

/-- Which sequences are read. -/
inductive Style where
  /-- octal numbers begin with a zero, and `c` ends the output -/
  | words
  /-- octal numbers need no zero -/
  | format
  deriving DecidableEq

/-- The character that a letter after a backslash stands for. -/
def letter? : Char → Option Nat
  | 'a' => some 7
  | 'b' => some 8
  | 'e' => some 27
  | 'f' => some 12
  | 'n' => some 10
  | 'r' => some 13
  | 't' => some 9
  | 'v' => some 11
  | '\\' => some 92
  | _ => none

/-- Whether a character is an octal digit. -/
def isOctal (c : Char) : Bool := '0' ≤ c && c ≤ '7'

def octal (s : List Char) : Nat := s.foldl (fun n c => n * 8 + (c.toNat - '0'.toNat)) 0

/-- The byte of an octal number that a text begins with, and the rest. -/
def octalByte (limit : Nat) (s : List Char) : UInt8 × List Char :=
  let digits := (s.take limit).takeWhile isOctal
  (.ofNat (octal digits), s.drop digits.length)

/-- The bytes of a text with its sequences read, and whether the output goes on after it. -/
def read (style : Style) : Nat → List Char → Bytes × Bool
  | 0, _ | _, [] => ([], true)
  | n + 1, '\\' :: c :: rest =>
    let more := fun (bytes : Bytes) (rest : List Char) =>
      let (tail, goesOn) := read style n rest
      (bytes ++ tail, goesOn)
    match letter? c with
    | some code => more [.ofNat code] rest
    | none =>
      if style = .words ∧ c = 'c' then ([], false)
      else if style = .words ∧ c = '0' then
        let (byte, rest) := octalByte 3 rest
        more [byte] rest
      else if isOctal c then
        let (byte, rest) := octalByte 3 (c :: rest)
        more [byte] rest
      else more (Octets.bytesOf ['\\', c]) rest
  | n + 1, c :: rest =>
    let (tail, goesOn) := read style n rest
    (Octets.bytesOf [c] ++ tail, goesOn)

/-- The bytes of a text with its sequences read, and whether the output goes on after it. -/
def bytes (style : Style) (s : String) : Bytes × Bool := read style (s.length + 1) s.toList

end Fleet.Shell.Escape
