import Mathlib
import MapStyling.Number.Double

/-!
# Numbers and Their Patterns

What the bits of `Float` and `Float32` determine.

A number is its pattern, and all patterns that are not a number are one. So a pattern that is
a number is kept as it is, and reading the bits of a number that is made from a pattern gives
the pattern back. The number that is unlike itself is the one whose pattern is not a number.

## Theorems

* `BinaryLayout.datum_eq_nan_iff`: The patterns that are not a number.
* `Double.toBits_ofBits`, `Single.toBits_ofBits`: All other patterns are kept.
* `Double.datum_eq_nan_iff`, `Double.beq_self`: The one number that is not a number.
-/

namespace MapStyling

open Float.Model Float.Model.UnpackedFloat

namespace BinaryLayout

/-- Patterns beyond the infinite one are not numbers. -/
theorem datum_eq_nan_iff_lt (b : BinaryLayout) (pattern : Nat) :
    b.datum pattern = .nan ↔ b.infinity < pattern % b.signBit := by
  rw [datum]
  split
  · next h => exact iff_of_true rfl h
  · next h =>
    refine iff_of_false ?_ h
    split <;> exact Datum.noConfusion

/-- What has all bits of the exponent and some bit of the fraction is not a number. -/
theorem datum_eq_nan_iff (b : BinaryLayout) (pattern : Nat) :
    b.datum pattern = .nan ↔
      pattern / 2 ^ b.fractionBits % 2 ^ b.exponentBits = 2 ^ b.exponentBits - 1 ∧
        pattern % 2 ^ b.fractionBits ≠ 0 := by
  have hsplit : pattern % b.signBit = pattern % 2 ^ b.fractionBits +
      2 ^ b.fractionBits * (pattern / 2 ^ b.fractionBits % 2 ^ b.exponentBits) := by
    rw [signBit, Nat.pow_eq, Nat.add_comm, pow_add, Nat.mod_mul]
  rw [datum_eq_nan_iff_lt, hsplit, infinity]
  simp only [Nat.pow_eq]
  have hfraction : pattern % 2 ^ b.fractionBits < 2 ^ b.fractionBits :=
    Nat.mod_lt _ (Nat.two_pow_pos _)
  have hexponent : pattern / 2 ^ b.fractionBits % 2 ^ b.exponentBits < 2 ^ b.exponentBits :=
    Nat.mod_lt _ (Nat.two_pow_pos _)
  generalize pattern % 2 ^ b.fractionBits = r at *
  generalize pattern / 2 ^ b.fractionBits % 2 ^ b.exponentBits = q at *
  generalize 2 ^ b.fractionBits = f at *
  generalize 2 ^ b.exponentBits = e at *
  -- Two digits in base `f`, compared with the greatest first digit and nothing behind it.
  constructor
  · intro h
    have hq : q = e - 1 := by
      by_contra hne
      have hle : f * q + f ≤ f * (e - 1) := Nat.mul_le_mul_left f (show q + 1 ≤ e - 1 by omega)
      rw [Nat.mul_comm (e - 1)] at h
      omega
    subst hq
    rw [Nat.mul_comm (e - 1)] at h
    exact ⟨rfl, by omega⟩
  · rintro ⟨rfl, hr⟩
    rw [Nat.mul_comm (e - 1)]
    omega

/-- The layout of a format. -/
def ofFormat (spec : Format) : BinaryLayout :=
  ⟨spec.mantissaBitsWithoutImplicit, spec.exponentBits⟩

theorem isNaNBits_iff {spec : Format} (x : BitVec spec.numBits) :
    isNaNBits x = true ↔ (ofFormat spec).datum x.toNat = .nan := by
  rw [datum_eq_nan_iff, isNaNBits, decide_eq_true_eq, unpackExponent_def, unpackMantissa_def]
  refine and_congr ?_ (not_congr ?_)
  · rw [← BitVec.toNat_inj, BitVec.extractLsb'_toNat, BitVec.neg_one_eq_allOnes,
      BitVec.toNat_allOnes, Nat.shiftRight_eq_div_pow]
    rfl
  · rw [← BitVec.toNat_inj, BitVec.extractLsb'_toNat, Nat.shiftRight_zero]
    rfl

end BinaryLayout

namespace Double

/-- A pattern that is a number is kept. -/
theorem toBits_ofBits {n : Nat} (hn : n < 2 ^ 64)
    (h : BinaryLayout.double.datum n ≠ .nan) : (Float.ofBits (.ofNat n)).toBits.toNat = n := by
  have hbits : (UInt64.ofNat n).toNat = n := UInt64.toNat_ofNat_of_lt' hn
  have hkept : ¬@isNaNBits Format.binary64 (UInt64.ofNat n).toBitVec = true := by
    rw [BinaryLayout.isNaNBits_iff, UInt64.toNat_toBitVec, hbits]
    exact h
  have hpack := @pack_unpack Format.binary64 (UInt64.ofNat n).toBitVec
  rw [if_neg hkept] at hpack
  exact (congrArg BitVec.toNat hpack).trans hbits

theorem datum_eq_nan_iff (x : Float) : datum x = .nan ↔ x = Float.nan := by
  refine Iff.trans (@BinaryLayout.isNaNBits_iff Format.binary64 x.toBits.toBitVec).symm
    ⟨fun h => ?_, ?_⟩
  · rw [isNaNBits, decide_eq_true_eq] at h
    exact Float.toBits_inj.mp (UInt64.toBitVec_inj.mp (x.toModel.valid.eq_packedNaN h.1 h.2))
  · rintro rfl
    exact isNaNBits_packedNaN

/-- Of all numbers, only the one that is not a number is unlike itself. -/
theorem beq_self (x : Float) : (x == x) = true ↔ datum x ≠ .nan :=
  Float.beq_self_iff.trans (not_congr (datum_eq_nan_iff x).symm)

theorem isNaN_iff (x : Float) : x.isNaN = true ↔ datum x = .nan := by
  rw [datum_eq_nan_iff, Float.isNaN_eq_decide_eq_nan, decide_eq_true_eq]

end Double

namespace Single

/-- A pattern that is a number is kept. -/
theorem toBits_ofBits {n : Nat} (hn : n < 2 ^ 32)
    (h : BinaryLayout.single.datum n ≠ .nan) : (Float32.ofBits (.ofNat n)).toBits.toNat = n := by
  have hbits : (UInt32.ofNat n).toNat = n := UInt32.toNat_ofNat_of_lt' hn
  have hkept : ¬@isNaNBits Format.binary32 (UInt32.ofNat n).toBitVec = true := by
    rw [BinaryLayout.isNaNBits_iff, UInt32.toNat_toBitVec, hbits]
    exact h
  have hpack := @pack_unpack Format.binary32 (UInt32.ofNat n).toBitVec
  rw [if_neg hkept] at hpack
  exact (congrArg BitVec.toNat hpack).trans hbits

theorem datum_eq_nan_iff (x : Float32) : datum x = .nan ↔ x = Float32.nan := by
  refine Iff.trans (@BinaryLayout.isNaNBits_iff Format.binary32 x.toBits.toBitVec).symm
    ⟨fun h => ?_, ?_⟩
  · rw [isNaNBits, decide_eq_true_eq] at h
    exact Float32.toBits_inj.mp (UInt32.toBitVec_inj.mp (x.toModel.valid.eq_packedNaN h.1 h.2))
  · rintro rfl
    exact isNaNBits_packedNaN

end Single

end MapStyling
