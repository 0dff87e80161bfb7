import Mathlib
import Mosaic.Proofs.Decimal.Numeral

/-!
# Natural numbers within the finite range

The number nearest to a natural number below `2 ^ 1023` is finite: its significand has at most 53
bits, even after it has been rounded up, and its exponent is at most 970.

* `toBits_ofBits`: bits that do not stand for infinity or for no number are kept.
* `quotient_lt`, `targetExponent_le`: the significand before it is rounded, and its exponent.
* `isFinite_ofNat`: the nearest number is finite.
* `readFloat_digits`: decimal digits are read as the nearest number.
-/

namespace Mosaic

namespace Binary64

/-! ## Bits -/

theorem leadingBit_eq : leadingBit = 2 ^ 52 := rfl

/-- The largest exponent field is reserved, so that any smaller one is kept. -/
theorem toBits_ofBits {bits : UInt64} (h : bits.toNat < 2047 * leadingBit) :
    (Float.ofBits bits).toBits = bits := by
  have hvalid : Float.Model.Format.binary64.Valid bits.toBitVec := by
    refine ⟨fun hexponent => ?_⟩
    have hfield : bits.toNat / 2 ^ 52 % 2 ^ 11 = 2047 := by
      simpa [Float.Model.UnpackedFloat.unpackExponent, Nat.shiftRight_eq_div_pow] using
        congrArg BitVec.toNat hexponent
    rw [leadingBit_eq] at h
    omega
  have hpacked := Float.Model.UnpackedFloat.pack_unpack_of_valid hvalid
  exact congrArg UInt64.ofBitVec hpacked

theorem isFinite_ofBits {n : Nat} (h : n < 2047 * leadingBit) :
    isFinite (Float.ofBits (UInt64.ofNat n)) = true := by
  have hword : n < 2 ^ 64 := by
    rw [leadingBit_eq] at h
    omega
  have hbits : (UInt64.ofNat n).toNat = n := UInt64.toNat_ofNat_of_lt hword
  have hkept : (Float.ofBits (UInt64.ofNat n)).toBits = UInt64.ofNat n :=
    toBits_ofBits (hbits.symm ▸ h)
  have hfield : n / leadingBit < 2047 :=
    Nat.div_lt_of_lt_mul (Nat.mul_comm 2047 leadingBit ▸ h)
  unfold isFinite biasedExponent
  rw [hkept, hbits, decide_eq_true_eq]
  exact Nat.lt_of_le_of_lt (Nat.mod_le _ _) hfield

/-! ## Rounding -/

theorem roundHalfEven_le (num den : Nat) : roundHalfEven num den ≤ num / den + 1 := by
  unfold roundHalfEven
  dsimp only
  split
  · omega
  · split <;> omega

/-- Fifty-three bits are left above an exponent that is 52 below the leading bit. -/
theorem quotient_lt {n : Nat} {e : Int} (he : (n.log2 : Int) - 52 ≤ e) :
    (scaleDown n 1 e).1 / (scaleDown n 1 e).2 < 2 ^ 53 := by
  have hn : n < 2 ^ (n.log2 + 1) := Nat.lt_log2_self
  unfold scaleDown
  -- the number loses bits on the right, or gains fewer than there is room for
  split
  · next hnonneg =>
    have hpower : 2 ^ (n.log2 + 1) ≤ 2 ^ (53 + e.toNat) :=
      Nat.pow_le_pow_right (by decide) (by omega)
    have hpos : 0 < 1 * 2 ^ e.toNat := by positivity
    refine (Nat.div_lt_iff_lt_mul hpos).mpr ?_
    calc n < 2 ^ (n.log2 + 1) := hn
      _ ≤ 2 ^ (53 + e.toNat) := hpower
      _ = 2 ^ 53 * 2 ^ e.toNat := Nat.pow_add 2 53 e.toNat
      _ = 2 ^ 53 * (1 * 2 ^ e.toNat) := by rw [Nat.one_mul]
  · next hneg =>
    have hpower : 2 ^ (n.log2 + 1) * 2 ^ (-e).toNat ≤ 2 ^ 53 := by
      rw [← Nat.pow_add]
      exact Nat.pow_le_pow_right (by decide) (by omega)
    refine Nat.lt_of_le_of_lt (Nat.div_le_self _ _) ?_
    calc n * 2 ^ (-e).toNat < 2 ^ (n.log2 + 1) * 2 ^ (-e).toNat :=
          Nat.mul_lt_mul_of_pos_right hn (Nat.pow_pos (by decide))
      _ ≤ 2 ^ 53 := hpower

/-- The exponent is the least one that leaves 53 bits, or the one above it. -/
theorem targetExponent_le (n : Nat) :
    targetExponent n 1 ≤ n.log2 - 52 ∧
      (scaleDown n 1 (targetExponent n 1)).1 / (scaleDown n 1 (targetExponent n 1)).2 < 2 ^ 53 := by
  have hguess : max ((n.log2 : Int) - Nat.log2 1 - 53) leastExponent = n.log2 - 53 := by
    have hone : Nat.log2 1 = 0 := by decide
    unfold leastExponent
    omega
  unfold targetExponent
  rw [hguess]
  dsimp only
  split
  · next hfits => exact ⟨by omega, hfits⟩
  · exact ⟨by omega, quotient_lt (by omega)⟩

/-- **The number nearest to a natural number** below a power of two up to `2 ^ 1023` is
finite. -/
theorem isFinite_ofNat {n k : Nat} (hk : k ≤ 1023) (h : n < 2 ^ k) : isFinite (ofNat n) = true := by
  unfold ofNat nearest
  by_cases hzero : n = 0
  · subst hzero
    exact isFinite_ofBits (by decide)
  · have hlog : n.log2 < k := (Nat.log2_lt hzero).mpr h
    obtain ⟨hexponent, hquotient⟩ := targetExponent_le n
    have hround := roundHalfEven_le (scaleDown n 1 (targetExponent n 1)).1
      (scaleDown n 1 (targetExponent n 1)).2
    simp only [hzero, if_false, Bool.false_eq_true, Nat.zero_add]
    generalize roundHalfEven (scaleDown n 1 (targetExponent n 1)).1
      (scaleDown n 1 (targetExponent n 1)).2 = m at hround ⊢
    have hbit := leadingBit_eq
    have hfield : (targetExponent n 1 + 1075).toNat * leadingBit ≤ 2045 * leadingBit :=
      Nat.mul_le_mul_right _ (by omega)
    -- a significand that is rounded up to the next power of two counts as one exponent more
    refine isFinite_ofBits ?_
    split <;> omega

end Binary64

/-! ## Decimal digits -/

namespace Decimal

open Binary64

/-- Ninety-three bits have at most twenty-eight digits. -/
theorem length_toDigits_le {n k m : Nat} (hm : 0 < m) (hk : k ≤ 93 * m) (h : n < 2 ^ k) :
    (Nat.toDigits 10 n).length ≤ 28 * m := by
  have hbits : 2 ^ k ≤ 2 ^ (93 * m) := Nat.pow_le_pow_right (by decide) hk
  have hpower : 2 ^ (93 * m) ≤ 10 ^ (28 * m) := by
    rw [Nat.pow_mul, Nat.pow_mul]
    exact Nat.pow_le_pow_left (by decide) m
  refine (Nat.length_toDigits_le_iff (by decide) (by omega)).mpr ?_
  exact Nat.lt_of_lt_of_le h (Nat.le_trans hbits hpower)

theorem nearestScaled_zero {n k : Nat} (hk : k ≤ 1023) (h : n < 2 ^ k) :
    nearestScaled false n 0 = ofNat n := by
  have hlength : (Nat.toDigits 10 n).length ≤ 308 :=
    length_toDigits_le (m := 11) (by decide) hk h
  unfold nearestScaled
  dsimp only
  by_cases hzero : n = 0
  · rw [if_pos (.inl hzero), hzero]
    rfl
  · have hsmall : ¬(n = 0 ∨ 0 + ((Nat.toDigits 10 n).length : Int) < -330) := by omega
    have hlarge : ¬310 < 0 + ((Nat.toDigits 10 n).length : Int) := by omega
    rw [if_neg hsmall, if_neg hlarge, if_pos (Int.le_refl 0)]
    simp [ofNat]

/-- The words that are numerals do not begin with a digit. -/
theorem lower_ne_of_isDigit {c : Char} (hc : c.isDigit = true) (rest : List Char)
    {word : String} {first : Char} {more : List Char} (hword : word.toList = first :: more)
    (hfirst : first.isDigit = false) : lower (c :: rest) ≠ word := by
  intro heq
  have hhead : c.toLower = first := by
    have hlist := congrArg String.toList heq
    rw [lower, String.toList_ofList, hword, List.map_cons] at hlist
    exact (List.cons.inj hlist).1
  have hsame : c.toLower = c := of_isDigit (p := fun c => c.toLower = c) (by decide) hc
  rw [← hhead, hsame, hc] at hfirst
  cases hfirst

/-- **Decimal digits** are read as the number nearest to what they denote. -/
theorem readFloat_digits {c : Char} {rest : List Char} (hdigits : ∀ d ∈ c :: rest, d.isDigit = true)
    {k : Nat} (hk : k ≤ 1023) (h : natOfDigits (c :: rest) < 2 ^ k) :
    readFloat (c :: rest) = some (ofNat (natOfDigits (c :: rest))) := by
  have hfirst : c.isDigit = true := hdigits c (List.mem_cons_self ..)
  have hsign : splitSign (c :: rest) = (false, c :: rest) := splitSign_of_isDigit hfirst rest
  have hinf : lower (c :: rest) ≠ "inf" := lower_ne_of_isDigit hfirst rest rfl rfl
  have hinfinity : lower (c :: rest) ≠ "infinity" := lower_ne_of_isDigit hfirst rest rfl rfl
  have hnan : lower (c :: rest) ≠ "nan" := lower_ne_of_isDigit hfirst rest rfl rfl
  have hwhole : (c :: rest).takeWhile Char.isDigit = c :: rest :=
    List.takeWhile_eq_self_iff.mpr hdigits
  have hafter : (c :: rest).dropWhile Char.isDigit = [] := List.dropWhile_eq_nil_iff.mpr hdigits
  unfold readFloat
  rw [hsign]
  simp only [hinf, hinfinity, hnan, or_self, if_false, hwhole, hafter, List.isEmpty_cons,
    Bool.false_and, Bool.false_eq_true, readExponent, Option.map_some, List.append_nil,
    List.length_nil]
  exact congrArg some (nearestScaled_zero hk h)

end Decimal

end Mosaic
