import Mathlib.Algebra.Order.Field.Power
import Mathlib.Data.Int.Log
import Mathlib.Data.Rat.Floor
import MapStyling.Number.Binary

/-!
# Rounding to Patterns

The pattern nearest to a ratio depends on the number that the ratio is, and a number that has
a pattern is rounded to it.

Rounding goes by numerators and denominators, and no ratio is brought to its lowest terms
before. What is asked of a ratio on the way is its binary logarithm and the whole number
nearest to it, and neither changes when both parts are multiplied by a number. A number with
a pattern is a whole multiple of the least step at its size, and then nothing is left to
round. The exponent at which a pattern is read and the one at which its number is rounded are
the same: the logarithm gives it for numbers with all digits, and the least one stands in for
those with fewer.

## Main definitions

* `Datum.magnitude`, `Datum.value?`: The number that a datum is.

## Theorems

* `BinaryLayout.floorLog_eq_log`: The logarithm of a ratio.
* `BinaryLayout.nearest_congr`: Equal ratios are rounded alike.
* `BinaryLayout.nearest_parts`: What a pattern stands for is rounded to it.
* `BinaryLayout.datum_signed`: A pattern behind a sign.
-/

namespace MapStyling

/-- Powers of two with a whole exponent, where the exponent is taken as a natural number. -/
theorem two_pow_toNat_neg {e : Int} (he : e < 0) : (2 : ℚ) ^ (-e).toNat = (2 ^ e)⁻¹ := by
  rw [← zpow_natCast, Int.toNat_of_nonneg (by omega), zpow_neg]

theorem two_pow_toNat {e : Int} (he : ¬e < 0) : (2 : ℚ) ^ e.toNat = 2 ^ e := by
  rw [← zpow_natCast, Int.toNat_of_nonneg (by omega)]

namespace Datum

/-- What a finite datum is without its sign. -/
def magnitude (significand : Nat) (exponent : Int) : ℚ := significand * 2 ^ exponent

/-- The number that a datum is. -/
def value? : Datum → Option ℚ
  | .finite negative m e => some (if negative then -magnitude m e else magnitude m e)
  | _ => none

theorem exists_finite {d : Datum} {q : ℚ} (h : d.value? = some q) :
    ∃ negative m e, d = finite negative m e := by
  cases d with
  | nan => cases h
  | infinite negative => cases h
  | finite negative m e => exact ⟨negative, m, e, rfl⟩

theorem ratio_pos (negative : Bool) (m : Nat) (e : Int) : 0 < (finite negative m e).ratio.2 := by
  rw [ratio]
  split
  · exact Nat.two_pow_pos _
  · exact Nat.one_pos

theorem ratio_eq (negative : Bool) (m : Nat) (e : Int) :
    ((finite negative m e).ratio.1 : ℚ) / (finite negative m e).ratio.2 = magnitude m e := by
  simp only [ratio, magnitude, Nat.pow_eq]
  split
  · next he => rw [Nat.cast_pow, Nat.cast_ofNat, two_pow_toNat_neg he, div_inv_eq_mul]
  · next he =>
    rw [Nat.cast_mul, Nat.cast_pow, Nat.cast_ofNat, two_pow_toNat he, Nat.cast_one, div_one]

theorem ratio_zero (negative : Bool) (e : Int) : (finite negative 0 e).ratio.1 = 0 := by
  rw [ratio]
  split
  · rfl
  · exact Nat.zero_mul _

theorem magnitude_zero (e : Int) : magnitude 0 e = 0 := by
  rw [magnitude, Nat.cast_zero, zero_mul]

theorem magnitude_pos {m : Nat} (hm : m ≠ 0) (e : Int) : 0 < magnitude m e := by
  rw [magnitude]
  positivity

/-- The whole part of a datum, from its ratio. -/
theorem floor_magnitude (negative : Bool) (m : Nat) (e : Int) :
    (((finite negative m e).ratio.1 / (finite negative m e).ratio.2 : Nat) : ℤ)
      = ⌊magnitude m e⌋ := by
  rw [← ratio_eq negative, Rat.floor_natCast_div_natCast, Int.natCast_ediv]

/-- Comparing with a natural number, from the ratio. -/
theorem mul_lt_ratio_iff (negative : Bool) (m : Nat) (e : Int) (n : Nat) :
    n * (finite negative m e).ratio.2 < (finite negative m e).ratio.1
      ↔ (n : ℚ) < magnitude m e := by
  rw [← ratio_eq negative, lt_div_iff₀ (Nat.cast_pos.mpr (ratio_pos negative m e))]
  exact_mod_cast Iff.rfl

end Datum

/-- The logarithm of a number with digits and an exponent. -/
theorem log_mul_zpow {base m : Nat} (hbase : 1 < base) (hm : m ≠ 0) (e : Int) :
    Int.log base ((m : ℚ) * (base : ℚ) ^ e) = Nat.log base m + e := by
  have hbase' : (0 : ℚ) < base := by exact_mod_cast lt_trans one_pos hbase
  have hpos : (0 : ℚ) < m * (base : ℚ) ^ e := by positivity
  have hlower : Nat.log base m + e ≤ Int.log base ((m : ℚ) * (base : ℚ) ^ e) := by
    rw [← Int.zpow_le_iff_le_log hbase hpos, zpow_add₀ hbase'.ne', zpow_natCast]
    gcongr
    exact_mod_cast Nat.pow_log_le_self base hm
  have hupper : Int.log base ((m : ℚ) * (base : ℚ) ^ e) < Nat.log base m + e + 1 := by
    rw [← Int.lt_zpow_iff_log_lt hbase hpos, add_right_comm, zpow_add₀ hbase'.ne']
    gcongr
    exact_mod_cast Nat.lt_pow_succ_log_self hbase m
  omega

namespace BinaryLayout

variable {num den num' den' : Nat}

theorem scale_pos (num : Nat) (hden : 0 < den) (e : Int) : 0 < (scale num den e).2 := by
  rw [scale]
  split
  · exact hden
  · exact Nat.mul_pos hden (Nat.two_pow_pos _)

theorem scale_eq (num den : Nat) (e : Int) :
    ((scale num den e).1 : ℚ) / (scale num den e).2 = num / den / 2 ^ e := by
  simp only [scale, Nat.pow_eq]
  split
  · next he =>
    rw [Nat.cast_mul, Nat.cast_pow, Nat.cast_ofNat, two_pow_toNat_neg he]
    ring
  · next he =>
    rw [Nat.cast_mul, Nat.cast_pow, Nat.cast_ofNat, two_pow_toNat he, div_div]

/-- Ratios are equal if their cross products are. -/
theorem div_eq_div_iff_mul (hden : 0 < den) (hden' : 0 < den') :
    (num : ℚ) / den = num' / den' ↔ num * den' = num' * den := by
  rw [div_eq_div_iff (Nat.cast_ne_zero.mpr hden.ne') (Nat.cast_ne_zero.mpr hden'.ne')]
  exact_mod_cast Iff.rfl

/-- The logarithm of a ratio lies next to the difference of the logarithms. -/
theorem log_div_bounds (hnum : 0 < num) (hden : 0 < den) :
    (num.log2 : ℤ) - den.log2 - 1 ≤ Int.log 2 ((num : ℚ) / den) ∧
      Int.log 2 ((num : ℚ) / den) < (num.log2 : ℤ) - den.log2 + 1 := by
  have hratio : (0 : ℚ) < num / den := by positivity
  have hden' : (0 : ℚ) < den := by positivity
  -- A number lies between the power of its logarithm and the next one.
  have hbounds : ∀ {n : Nat}, 0 < n →
      (2 : ℚ) ^ (n.log2 : ℤ) ≤ n ∧ (n : ℚ) < 2 ^ ((n.log2 : ℤ) + 1) := by
    intro n hn
    constructor
    · rw [zpow_natCast]
      exact_mod_cast Nat.log2_self_le hn.ne'
    · exact_mod_cast Nat.lt_log2_self (n := n)
  obtain ⟨hnum₁, hnum₂⟩ := hbounds hnum
  obtain ⟨hden₁, hden₂⟩ := hbounds hden
  constructor
  · rw [← Int.zpow_le_iff_le_log one_lt_two hratio, le_div_iff₀ hden']
    calc ((2 : ℕ) : ℚ) ^ ((num.log2 : ℤ) - den.log2 - 1) * den
        ≤ 2 ^ ((num.log2 : ℤ) - den.log2 - 1) * 2 ^ ((den.log2 : ℤ) + 1) := by
          rw [Nat.cast_ofNat]
          gcongr
      _ = 2 ^ (num.log2 : ℤ) := by rw [← zpow_add₀ two_ne_zero]; congr 1; ring
      _ ≤ num := hnum₁
  · rw [← Int.lt_zpow_iff_log_lt one_lt_two hratio, div_lt_iff₀ hden']
    calc (num : ℚ) < 2 ^ ((num.log2 : ℤ) + 1) := hnum₂
      _ = 2 ^ ((num.log2 : ℤ) - den.log2 + 1) * 2 ^ (den.log2 : ℤ) := by
          rw [← zpow_add₀ two_ne_zero]; congr 1; ring
      _ ≤ ((2 : ℕ) : ℚ) ^ ((num.log2 : ℤ) - den.log2 + 1) * den := by
          rw [Nat.cast_ofNat]
          gcongr

/-- The logarithm of a ratio. Numerator and denominator say it up to one, and comparing with
    the greater of the two powers says the rest. -/
theorem floorLog_eq_log (hnum : 0 < num) (hden : 0 < den) :
    floorLog num den = Int.log 2 ((num : ℚ) / den) := by
  have hratio : (0 : ℚ) < num / den := by positivity
  obtain ⟨hlower, hupper⟩ := log_div_bounds hnum hden
  -- The denominator of the scaled ratio is at most the numerator if the power is.
  have hscale : (scale num den ((num.log2 : ℤ) - den.log2)).2
      ≤ (scale num den ((num.log2 : ℤ) - den.log2)).1
        ↔ (num.log2 : ℤ) - den.log2 ≤ Int.log 2 ((num : ℚ) / den) := by
    rw [← Int.zpow_le_iff_le_log one_lt_two hratio, ← Nat.cast_le (α := ℚ),
      ← one_le_div (Nat.cast_pos.mpr (scale_pos num hden _)), scale_eq, Nat.cast_ofNat,
      one_le_div (by positivity)]
  rw [floorLog]
  split
  next n d hsplit =>
    rw [hsplit] at hscale
    simp only at hscale
    split
    · next h =>
      have := hscale.mp h
      omega
    · next h =>
      have := mt hscale.mpr h
      omega

theorem divNearest_mul_left {k : Nat} (hk : 0 < k) (n d : Nat) :
    divNearest (k * n) (k * d) = divNearest n d := by
  rw [divNearest, divNearest, Nat.mul_div_mul_left n d hk, Nat.mul_mod_mul_left]
  have hlt : 2 * (k * (n % d)) < k * d ↔ 2 * (n % d) < d := by
    rw [Nat.mul_left_comm, Nat.mul_lt_mul_left hk]
  have heq : 2 * (k * (n % d)) = k * d ↔ 2 * (n % d) = d := by
    rw [Nat.mul_left_comm, Nat.mul_right_inj hk.ne']
  simp only [hlt, heq]

theorem divNearest_congr {n d n' d' : Nat} (hd : 0 < d) (hd' : 0 < d') (h : n * d' = n' * d) :
    divNearest n d = divNearest n' d' :=
  calc divNearest n d = divNearest (d' * n) (d' * d) := (divNearest_mul_left hd' n d).symm
    _ = divNearest (d * n') (d * d') := by rw [Nat.mul_comm d' n, h, Nat.mul_comm n',
      Nat.mul_comm d']
    _ = divNearest n' d' := divNearest_mul_left hd n' d'

/-- Nothing is left to round of a whole number. -/
theorem divNearest_of_eq {n d k : Nat} (hd : 0 < d) (h : n = k * d) : divNearest n d = k := by
  rw [divNearest, h, Nat.mul_div_cancel _ hd, Nat.mul_mod_left, if_pos (by omega)]

/-- Equal ratios are rounded alike. -/
theorem nearest_congr (b : BinaryLayout) (hden : 0 < den) (hden' : 0 < den')
    (h : num * den' = num' * den) : b.nearest num den = b.nearest num' den' := by
  have hratio := (div_eq_div_iff_mul hden hden').mpr h
  have hzero : num = 0 ↔ num' = 0 := by
    constructor
    · rintro rfl
      rw [Nat.zero_mul] at h
      exact (Nat.mul_eq_zero.mp h.symm).resolve_right hden.ne'
    · rintro rfl
      rw [Nat.zero_mul] at h
      exact (Nat.mul_eq_zero.mp h).resolve_right hden'.ne'
  rw [nearest, nearest]
  by_cases hnum : num = 0
  · rw [if_pos hnum, if_pos (hzero.mp hnum)]
  · have hnum' : num' ≠ 0 := mt hzero.mpr hnum
    rw [if_neg hnum, if_neg hnum', floorLog_eq_log (Nat.pos_of_ne_zero hnum) hden,
      floorLog_eq_log (Nat.pos_of_ne_zero hnum') hden', hratio]
    -- Both are scaled by the same exponent, since it depends on the logarithm only.
    generalize max b.leastExponent _ = e
    have hscaled : divNearest (scale num den e).1 (scale num den e).2
        = divNearest (scale num' den' e).1 (scale num' den' e).2 := by
      refine divNearest_congr (scale_pos num hden e) (scale_pos num' hden' e) ?_
      rw [← div_eq_div_iff_mul (scale_pos num hden e) (scale_pos num' hden' e), scale_eq, scale_eq,
        hratio]
    exact congrArg (fun k => min b.infinity ((e - b.leastExponent).toNat * _ + k)) hscaled

theorem nearest_le (b : BinaryLayout) (num den : Nat) : b.nearest num den ≤ b.infinity := by
  rw [nearest]
  split
  · exact Nat.zero_le _
  · exact Nat.min_le_left _ _

/-- The parts of a pattern make it up again. -/
theorem parts_eq (b : BinaryLayout) (pattern : Nat) :
    ((b.parts pattern).2 - b.leastExponent).toNat * 2 ^ b.fractionBits + (b.parts pattern).1
      = pattern := by
  have hsplit : 2 ^ b.fractionBits * (pattern / 2 ^ b.fractionBits) + pattern % 2 ^ b.fractionBits
      = pattern := Nat.div_add_mod _ _
  rw [parts, Nat.pow_eq]
  split
  · next hzero =>
    rw [hzero, Nat.mul_zero, Nat.zero_add] at hsplit
    simp only [Int.sub_self, Int.toNat_zero, Nat.zero_mul, Nat.zero_add]
    exact hsplit
  · next hpos =>
    obtain ⟨k, hk⟩ := Nat.exists_eq_succ_of_ne_zero hpos
    rw [hk] at hsplit
    simp only [hk, Nat.succ_eq_add_one, Nat.add_sub_cancel, add_sub_cancel_left, Int.toNat_natCast]
    rw [Nat.succ_eq_add_one, Nat.mul_succ, Nat.mul_comm] at hsplit
    omega

/-- Only zero has no digits. -/
theorem eq_zero_of_parts {b : BinaryLayout} {pattern : Nat} (h : (b.parts pattern).1 = 0) :
    pattern = 0 := by
  have hfraction : 0 < 2 ^ b.fractionBits := Nat.two_pow_pos _
  unfold parts at h
  simp only [Nat.pow_eq] at h
  split at h
  · next hzero =>
    rw [← Nat.div_add_mod pattern (2 ^ b.fractionBits), hzero]
    simpa using h
  · simp only at h
    omega

theorem log_magnitude {m : Nat} (hm : m ≠ 0) (e : Int) :
    Int.log 2 (Datum.magnitude m e) = Nat.log 2 m + e := by
  have hlog := log_mul_zpow one_lt_two hm e
  rwa [Nat.cast_ofNat] at hlog

/-- The exponent of a pattern is the one at which its number is rounded. -/
theorem max_log_parts (b : BinaryLayout) {pattern : Nat} (h : (b.parts pattern).1 ≠ 0) :
    max b.leastExponent
      (Int.log 2 (Datum.magnitude (b.parts pattern).1 (b.parts pattern).2) - b.fractionBits)
      = (b.parts pattern).2 := by
  have hfraction : pattern % 2 ^ b.fractionBits < 2 ^ b.fractionBits :=
    Nat.mod_lt _ (Nat.two_pow_pos _)
  rw [log_magnitude h]
  unfold parts at h ⊢
  simp only [Nat.pow_eq] at h ⊢
  split
  · next hzero =>
    -- Fewer digits than there is room for: the least exponent stands in.
    rw [if_pos hzero] at h
    have hlog : Nat.log 2 (pattern % 2 ^ b.fractionBits) < b.fractionBits :=
      Nat.log_lt_of_lt_pow h hfraction
    simp only
    omega
  · have hlog : Nat.log 2 (2 ^ b.fractionBits + pattern % 2 ^ b.fractionBits) = b.fractionBits :=
      Nat.log_eq_of_pow_le_of_lt_pow (Nat.le_add_right _ _) (by rw [Nat.pow_succ]; omega)
    simp only [hlog]
    omega

/-- What a pattern stands for is rounded to it. -/
theorem nearest_parts (b : BinaryLayout) {pattern : Nat} (hpattern : pattern ≤ b.infinity)
    (hden : 0 < den)
    (h : (num : ℚ) / den = Datum.magnitude (b.parts pattern).1 (b.parts pattern).2) :
    b.nearest num den = pattern := by
  have hparts := b.parts_eq pattern
  by_cases hm : (b.parts pattern).1 = 0
  · have hnum : num = 0 := by
      rw [hm, Datum.magnitude, Nat.cast_zero, zero_mul, div_eq_zero_iff] at h
      exact_mod_cast h.resolve_right (Nat.cast_ne_zero.mpr hden.ne')
    rw [nearest, if_pos hnum, eq_zero_of_parts hm]
  · have hmax := b.max_log_parts hm
    generalize b.parts pattern = part at *
    obtain ⟨m, e⟩ := part
    simp only at h hparts hmax hm
    have hnum : num ≠ 0 := by
      rintro rfl
      rw [Nat.cast_zero, zero_div] at h
      exact (Datum.magnitude_pos hm e).ne h
    -- Scaled to its exponent, the number is whole.
    have hexact : divNearest (scale num den e).1 (scale num den e).2 = m := by
      refine divNearest_of_eq (scale_pos num hden e) ?_
      have hscale := scale_eq num den e
      rw [h, Datum.magnitude, mul_div_cancel_right₀ _ (by positivity),
        div_eq_iff (Nat.cast_ne_zero.mpr (scale_pos num hden e).ne')] at hscale
      exact_mod_cast hscale
    rw [nearest, if_neg hnum, floorLog_eq_log (Nat.pos_of_ne_zero hnum) hden, h, hmax]
    simp only [hexact, Nat.pow_eq, hparts]
    exact Nat.min_eq_right hpattern

theorem infinity_lt_signBit (b : BinaryLayout) : b.infinity < b.signBit := by
  rw [infinity, signBit, Nat.pow_eq, Nat.pow_eq, Nat.pow_eq, Nat.pow_add]
  exact Nat.mul_lt_mul_of_pos_right (Nat.sub_lt (Nat.two_pow_pos _) Nat.one_pos) (Nat.two_pow_pos _)

/-- A pattern behind a sign. -/
theorem datum_signed (b : BinaryLayout) (negative : Bool) {magnitude : Nat}
    (h : magnitude ≤ b.infinity) : b.datum (b.signed negative magnitude)
      = if magnitude = b.infinity then .infinite negative
        else .finite negative (b.parts magnitude).1 (b.parts magnitude).2 := by
  have hlt : magnitude < b.signBit := lt_of_le_of_lt h b.infinity_lt_signBit
  have hmod : b.signed negative magnitude % b.signBit = magnitude := by
    cases negative with
    | false => exact Nat.mod_eq_of_lt hlt
    | true => rw [signed, if_pos rfl, Nat.add_mod_left, Nat.mod_eq_of_lt hlt]
  have hsign : (decide (b.signBit ≤ b.signed negative magnitude)) = negative := by
    cases negative with
    | false => exact decide_eq_false (Nat.not_le.mpr hlt)
    | true => exact decide_eq_true (Nat.le_add_right _ _)
  simp only [datum, hmod, hsign, if_neg (Nat.not_lt.mpr h)]

end BinaryLayout

end MapStyling
