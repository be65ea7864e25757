import Fleet.Yaml.Plain

/-!
# Numbers in decimal

A natural number comes back from its text (`natural?_text`): its decimal digits begin with a zero only if there is no
other, so that nothing in them is a mark of another radix or a needless zero, and they spell nothing else
(`plainValue?_natural`).
-/

namespace Fleet.Yaml

theorem hexValue?_digit {c : Char} (h : c.isDigit) : hexValue? c = some (c.toNat - 48) ∧ c.toNat - 48 < 10 := by
  have hbounds : 48 ≤ c.toNat ∧ c.toNat ≤ 57 := by
    simpa [Char.isDigit, UInt32.le_iff_toNat_le] using h
  exact ⟨by rw [hexValue?, if_pos h], by omega⟩

theorem foldlM_digits {digits : List Char} (h : ∀ c ∈ digits, c.isDigit) (n : Nat) :
    digits.foldlM (fun n c => (hexValue? c).bind fun x => if x < 10 then some (10 * n + x) else none) n =
      some (Nat.ofDigitChars 10 digits n) := by
  induction digits generalizing n with
  | nil => rfl
  | cons c digits ih =>
    obtain ⟨hc, hdigits⟩ := List.forall_mem_cons.mp h
    obtain ⟨hvalue, hlt⟩ := hexValue?_digit hc
    rw [List.foldlM_cons, hvalue, Option.bind_some, if_pos hlt]
    exact ih hdigits _

theorem natural?_digits {c : Char} {rest : List Char} (h : ∀ d ∈ c :: rest, d.isDigit)
    (hzero : c = '0' → rest = []) : natural? (c :: rest) = some (Nat.ofDigitChars 10 (c :: rest) 0) := by
  have hc : c.isDigit := h c List.mem_cons_self
  have hsign : ∀ r, c :: rest ≠ '+' :: r ∧ c :: rest ≠ '-' :: r := by
    refine fun r => ⟨?_, ?_⟩ <;> (intro heq; obtain ⟨rfl, -⟩ := List.cons.inj heq; cases hc)
  have hpadded : isZeroPadded (c :: rest) = false := by
    unfold isZeroPadded
    split
    · exact absurd ‹_› (hsign _).1
    · exact absurd ‹_› (hsign _).2
    · by_cases hhead : c = '0'
      · simp [hzero hhead]
      · simp [hhead]
  have hmarked : markedNumber? (c :: rest) = radixNumber? 10 (c :: rest) := by
    by_cases hhead : c = '0'
    · rw [hhead, hzero hhead]
      rfl
    · unfold markedNumber?
      split <;> simp_all
  rw [natural?, hpadded, if_neg Bool.false_ne_true, hmarked]
  · exact foldlM_digits h 0
  · exact fun r => (hsign r).1

theorem toDigits_zero {n : Nat} {rest : List Char} (h : Nat.toDigits 10 n = '0' :: rest) : rest = [] := by
  induction n using Nat.strongRecOn generalizing rest with
  | ind n ih =>
    rw [Nat.toDigits_eq_if (by decide)] at h
    split at h
    · exact (List.cons.inj h).2.symm
    · rename_i hge
      -- what is before the last digit spells a tenth of the number, which is not zero
      obtain ⟨c, front, hfront⟩ := List.exists_cons_of_ne_nil (Nat.toDigits_ne_nil (b := 10) (n := n / 10))
      rw [hfront, List.cons_append] at h
      obtain ⟨rfl, -⟩ := List.cons.inj h
      obtain rfl := ih (n / 10) (by omega) hfront
      have hzero : n / 10 = 0 := by
        rw [← Nat.ofDigitChars_ten_toDigits (n := n / 10), hfront]
        rfl
      omega

theorem natural?_toDigits (n : Nat) : natural? (Nat.toDigits 10 n) = some n := by
  obtain ⟨c, rest, hcons⟩ := List.exists_cons_of_ne_nil (Nat.toDigits_ne_nil (b := 10) (n := n))
  have hdigits : ∀ d ∈ c :: rest, d.isDigit := fun d hd =>
    Nat.isDigit_of_mem_toDigits (by decide) (by decide) (hcons ▸ hd)
  rw [hcons, natural?_digits hdigits fun hc => toDigits_zero (hc ▸ hcons), ← hcons,
    Nat.ofDigitChars_toDigits (by decide) (by decide)]

theorem natural?_text (n : Nat) : natural? (Number.integer n).text.toList = some n := by
  change natural? (toString (n : Int)).toList = some n
  rw [← natural?_toDigits n]
  congr 1
  exact Nat.toList_repr

/-- What spells a natural number spells nothing else: it is not empty, nor a spelling of null or of a boolean. -/
theorem only_natural {s : String} {n : Nat} (h : natural? s.toList = some n) :
    (s = "" || isNull s) = false ∧ boolean? s = none := by
  have hne : ∀ t : String, natural? t.toList = none → s ≠ t := by
    rintro t ht rfl
    rw [h] at ht
    cases ht
  constructor
  · simp [isNull, hne "" rfl, hne "~" rfl, hne "null" rfl, hne "Null" rfl, hne "NULL" rfl]
  · simp [boolean?, hne "true" rfl, hne "True" rfl, hne "TRUE" rfl, hne "false" rfl, hne "False" rfl, hne "FALSE" rfl]

theorem integer?_of_natural {s : List Char} {n : Nat} (h : natural? s = some n) : integer? s = some (n : Int) := by
  have hpadded : isZeroPadded s = false := by
    refine Bool.eq_false_iff.mpr fun hpadded => ?_
    unfold natural? at h
    rw [if_pos hpadded] at h
    cases h
  unfold integer?
  rw [hpadded, if_neg Bool.false_ne_true]
  split
  · unfold natural? at h
    rw [hpadded, if_neg Bool.false_ne_true] at h
    cases h
  · rw [h]
    rfl

theorem fits_natural {n : Nat} (h : n < UInt64.size) : fits 64 n = true := by
  rw [fits, Bool.and_eq_true, decide_eq_true_eq, decide_eq_true_eq]
  constructor
  · omega
  · exact Int.ofNat_lt.mpr h

theorem integerValue?_natural {n : Nat} (h : n < UInt64.size) :
    integerValue? (Number.integer n).text = some (some (.number (.integer n))) := by
  rw [integerValue?, integer?_of_natural (natural?_text n)]
  exact if_pos (fits_natural h)

theorem plainValue?_natural {n : Nat} (h : n < UInt64.size) :
    plainValue? (Number.integer n).text = some (.number (.integer n)) := by
  obtain ⟨hnull, hboolean⟩ := only_natural (natural?_text n)
  unfold plainValue?
  rw [hnull, hboolean, integerValue?_natural h]
  rfl

theorem integerValue?_ne_text (s t : String) : integerValue? s ≠ some (some (.text t)) := by
  intro h
  unfold integerValue? at h
  split at h
  · split at h
    · cases h
    · split at h <;> cases h
  · cases h

theorem eq_of_plainValue?_text {s t : String} (h : plainValue? s = some (.text t)) : t = s := by
  unfold plainValue? at h
  split at h
  · cases h
  · split at h
    · cases h
    · split at h
      · rename_i hinteger
        exact absurd (h ▸ hinteger) (integerValue?_ne_text s t)
      · split at h
        · cases h
        · exact (Value.text.inj (Option.some.inj h)).symm

end Fleet.Yaml
