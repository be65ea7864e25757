import Fleet.Shell.Octets
import Mathlib.Data.Char
import Mathlib.Tactic.Common

/-!
# Spelt texts

A text that is spelt out in bytes keeps its ASCII characters in their places, and what it gets instead of the others
is never ASCII.  So whatever looks for ASCII characters alone finds in the spelling what it finds in the text.
-/

namespace Fleet.Shell.Octets

/-- The characters for the bytes of a character. -/
def spelling (c : Char) : List Char := chars (String.utf8EncodeChar c)

theorem toList_encode (s : String) : (encode s).toList = s.toList.flatMap spelling := by
  have hbytes : Text.bytes s = s.toList.flatMap String.utf8EncodeChar := by
    rw [Text.bytes, String.toUTF8, ← s.ofList_toList, String.toByteArray_ofList, List.utf8Encode, String.toList_ofList]
    simp
  rw [encode, ofBytes, String.toList_ofList, hbytes, chars, List.map_flatMap]
  rfl

theorem encode_append (s t : String) : encode (s ++ t) = encode s ++ encode t := by
  rw [← String.toList_inj, toList_encode, String.toList_append, String.toList_append, List.flatMap_append,
    toList_encode, toList_encode]

theorem spelling_ascii {c : Char} (h : c.toNat < 0x80) : spelling c = [c] := by
  have hv : c.val.toNat ≤ 127 := Nat.le_of_lt_succ h
  rw [spelling, String.utf8EncodeChar]
  simp only [hv, ↓reduceIte, chars, List.map_cons, List.map_nil, List.cons.injEq, and_true]
  rw [UInt8.toNat_ofNat_of_lt' (Nat.lt_of_le_of_lt hv (by decide))]
  exact c.ofNat_toNat

theorem toNat_ofByte (b : UInt8) : (Char.ofNat b.toNat).toNat = b.toNat := by
  have hb := b.toNat_lt
  have hvalid : b.toNat.isValidChar := Or.inl (by omega)
  rw [Char.ofNat, dif_pos hvalid]
  rfl

theorem not_ascii_of_mem_spelling {c d : Char} (h : 0x80 ≤ c.toNat) (hd : d ∈ spelling c) : 0x80 ≤ d.toNat := by
  have hv : ¬c.val.toNat ≤ 127 := by
    have : c.val.toNat = c.toNat := rfl
    omega
  obtain ⟨b, hb, rfl⟩ := List.mem_map.mp hd
  rw [toNat_ofByte]
  -- every byte of a longer code has its first bit set
  rw [String.utf8EncodeChar] at hb
  simp only [hv, ↓reduceIte] at hb
  split at hb
  · simp only [List.mem_cons, List.not_mem_nil, or_false] at hb
    rcases hb with rfl | rfl <;> simp [UInt8.toNat_ofNat'] <;> omega
  · split at hb <;> simp only [List.mem_cons, List.not_mem_nil, or_false] at hb
    · rcases hb with rfl | rfl | rfl <;> simp [UInt8.toNat_ofNat'] <;> omega
    · rcases hb with rfl | rfl | rfl | rfl <;> simp [UInt8.toNat_ofNat'] <;> omega

theorem mem_spelling {c d : Char} (hd : d.toNat < 0x80) : d ∈ spelling c ↔ d = c := by
  by_cases hc : c.toNat < 0x80
  · rw [spelling_ascii hc, List.mem_singleton]
  · constructor
    · intro h
      have := not_ascii_of_mem_spelling (by omega) h
      omega
    · rintro rfl
      exact absurd hd hc

theorem mem_encode {s : String} {d : Char} (hd : d.toNat < 0x80) : d ∈ (encode s).toList ↔ d ∈ s.toList := by
  simp [toList_encode, mem_spelling hd]

theorem spelling_ne_nil (c : Char) : spelling c ≠ [] := by
  rw [spelling, String.utf8EncodeChar]
  split
  · simp [chars]
  · split
    · simp [chars]
    · split <;> simp [chars]

theorem head?_encode {s : String} {d : Char} (hd : d.toNat < 0x80) :
    (encode s).toList.head? = some d ↔ s.toList.head? = some d := by
  rw [toList_encode]
  cases s.toList with
  | nil => rfl
  | cons c cs =>
    obtain ⟨e, es, he⟩ := List.exists_cons_of_ne_nil (spelling_ne_nil c)
    by_cases hc : c.toNat < 0x80
    · simp [spelling_ascii hc]
    · have hlarge : 0x80 ≤ e.toNat := not_ascii_of_mem_spelling (by omega) (he ▸ List.mem_cons_self)
      have hed : e ≠ d := by rintro rfl; omega
      have hcd : c ≠ d := by rintro rfl; exact hc hd
      simp [he, hed, hcd]

theorem encode_eq_self {s : String} (h : ∀ c ∈ (encode s).toList, c.toNat < 0x80) : encode s = s := by
  have hascii : ∀ c ∈ s.toList, spelling c = [c] := by
    intro c hc
    by_contra hspelling
    obtain ⟨d, hd⟩ := List.exists_mem_of_ne_nil _ (spelling_ne_nil c)
    have hlarge := not_ascii_of_mem_spelling (Nat.le_of_not_lt fun hc => hspelling (spelling_ascii hc)) hd
    have hsmall := h d (by rw [toList_encode]; exact List.mem_flatMap.mpr ⟨c, hc, hd⟩)
    omega
  rw [← String.toList_inj, toList_encode, List.flatMap_def, List.map_congr_left hascii, ← List.flatMap_def,
    List.flatMap_singleton']

theorem encode_eq_empty {s : String} : encode s = "" ↔ s = "" := by
  rw [← String.toList_eq_nil_iff, toList_encode, List.flatMap_eq_nil_iff, ← String.toList_eq_nil_iff]
  exact ⟨fun h => List.eq_nil_iff_forall_not_mem.mpr fun c hc => spelling_ne_nil c (h c hc), by simp +contextual⟩

end Fleet.Shell.Octets
