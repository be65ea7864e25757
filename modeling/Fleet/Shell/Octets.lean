import Fleet.Text.Utf8
import Fleet.Path

/-!
# Texts of octets

A shell and its programs work on bytes, not on characters.  In their texts every character stands for one byte
and is below U+0100, so that a text keeps whatever bytes it is given.  Texts from outside are spelt out on the
way in, and the names of files are put together again on the way out.
-/

namespace Fleet.Shell.Octets

open Text (Bytes)

def chars (b : Bytes) : List Char := b.map fun x => Char.ofNat x.toNat

def bytesOf (s : List Char) : Bytes := s.map fun c => UInt8.ofNat c.toNat

def ofBytes (b : Bytes) : String := String.ofList (chars b)

/-- The bytes that a text stands for. -/
def bytes (s : String) : Bytes := bytesOf s.toList

def encode (s : String) : String := ofBytes (Text.bytes s)

def decode (s : String) : String := Text.ofBytes (bytes s)

def path (s : String) : Path := ⟨decode s⟩

end Fleet.Shell.Octets
