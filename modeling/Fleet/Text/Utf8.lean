/-!
# UTF-8

Files hold bytes, and texts are written into them in UTF-8.  Reading is done byte by byte.  A byte that
cannot go on with a begun character ends it as a malformed piece and is read afresh; so every byte belongs
to one character or to one malformed piece.
-/

namespace Fleet.Text

abbrev Bytes := List UInt8

def bytes (s : String) : Bytes := s.toUTF8.data.toList

namespace Utf8

/-- A character that has begun. -/
structure Pending where
  /-- the bits read so far -/
  bits : Nat
  /-- how many bytes are to come -/
  missing : Nat
  /-- the least byte that may come next -/
  low : UInt8
  /-- the greatest byte that may come next -/
  high : UInt8

/-- What a byte at the start of a character is. -/
inductive First where
  | char (c : Char)
  | lead (p : Pending)
  | malformed

/-- What a byte means at the start of a character.  The bounds of the second byte exclude long forms,
surrogates and all that is beyond the last character. -/
def first (b : UInt8) : First :=
  let n := b.toNat
  if n < 0x80 then .char (Char.ofNat n)
  else if n < 0xC2 then .malformed
  else if n < 0xE0 then .lead ⟨n - 0xC0, 1, 0x80, 0xBF⟩
  else if n = 0xE0 then .lead ⟨0, 2, 0xA0, 0xBF⟩
  else if n = 0xED then .lead ⟨0xD, 2, 0x80, 0x9F⟩
  else if n < 0xF0 then .lead ⟨n - 0xE0, 2, 0x80, 0xBF⟩
  else if n = 0xF0 then .lead ⟨0, 3, 0x90, 0xBF⟩
  else if n < 0xF4 then .lead ⟨n - 0xF0, 3, 0x80, 0xBF⟩
  else if n = 0xF4 then .lead ⟨4, 3, 0x80, 0x8F⟩
  else .malformed

/-- The begun character with one more byte. -/
def Pending.add (p : Pending) (b : UInt8) : Pending :=
  ⟨p.bits * 0x40 + (b.toNat - 0x80), p.missing - 1, 0x80, 0xBF⟩

/-- The characters of bytes, of which one may have begun before; none stands for a malformed piece. -/
def decode : Option Pending → Bytes → List (Option Char)
  | none, [] => []
  | some _, [] => [none]
  | none, b :: rest =>
    match first b with
    | .char c => some c :: decode none rest
    | .lead p => decode (some p) rest
    | .malformed => none :: decode none rest
  | some p, b :: rest =>
    if p.low ≤ b ∧ b ≤ p.high then
      let p := p.add b
      if p.missing = 0 then some (Char.ofNat p.bits) :: decode none rest else decode (some p) rest
    else
      match first b with
      | .char c => none :: some c :: decode none rest
      | .lead p => none :: decode (some p) rest
      | .malformed => none :: none :: decode none rest

end Utf8

/-- The text that bytes spell, if they are well formed. -/
def ofBytes? (b : Bytes) : Option String :=
  ((Utf8.decode none b).mapM id).map String.ofList

/-- The text that bytes spell, with U+FFFD for every malformed piece. -/
def ofBytes (b : Bytes) : String :=
  String.ofList ((Utf8.decode none b).map (·.getD '\uFFFD'))

end Fleet.Text
