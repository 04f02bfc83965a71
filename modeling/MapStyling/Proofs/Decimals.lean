import MapStyling.Number.Decimal
import MapStyling.Proofs.Rounding

/-!
# Decimals That Read Back

The decimal that is printed for a pattern reads as the pattern.

What a decimal reads as depends on the number that it is. Its digits and its exponent may
change as long as the number does not: zeros at the end may be dropped, and a power of two may
be written in digits. The limits beyond which no power of ten is raised are limits on the
number as well, since digits and exponent together say how large it is.

So it is enough that the search asks of a decimal what it reads as. Where it finds none, the
number is written in full, and a number of a pattern is rounded to the pattern.

## Main definitions

* `Decimal.value`: The number that a decimal is.
* `BinaryLayout.Reached`: Layouts without a number beyond the limits.

## Theorems

* `Decimal.nearest_congr`: Equal decimals read alike.
* `Decimal.nearest_shortest`: The shortest decimal reads back.
-/

namespace MapStyling

namespace Decimal

/-- The number that a decimal is. -/
def value (d : Decimal) : ℚ := d.digits * 10 ^ d.exponent

theorem ratio_pos (d : Decimal) : 0 < d.ratio.2 := by
  rw [ratio]
  split
  · exact Nat.pow_pos (by decide)
  · exact Nat.one_pos

theorem ratio_eq (d : Decimal) : (d.ratio.1 : ℚ) / d.ratio.2 = d.value := by
  simp only [ratio, value, Nat.pow_eq]
  split
  · next he =>
    have hexp : (10 : ℚ) ^ (-d.exponent).toNat = (10 ^ d.exponent)⁻¹ := by
      rw [← zpow_natCast, Int.toNat_of_nonneg (by omega), zpow_neg]
    rw [Nat.cast_pow, Nat.cast_ofNat, hexp, div_inv_eq_mul]
  · next he =>
    have hexp : (10 : ℚ) ^ d.exponent.toNat = 10 ^ d.exponent := by
      rw [← zpow_natCast, Int.toNat_of_nonneg (by omega)]
    rw [Nat.cast_mul, Nat.cast_pow, Nat.cast_ofNat, hexp, Nat.cast_one, div_one]

theorem digitCount_eq {n : Nat} (hn : n ≠ 0) : digitCount n = Nat.log 10 n + 1 := by
  rw [digitCount, if_neg hn]
  refine le_antisymm ?_ ?_
  · exact (Nat.length_toDigits_le_iff (by decide) (Nat.succ_pos _)).mpr
      (Nat.lt_pow_succ_log_self (by decide) n)
  · refine Nat.succ_le_of_lt (Nat.log_lt_of_lt_pow hn ?_)
    exact (Nat.length_toDigits_le_iff (by decide) Nat.length_toDigits_pos).mp (le_refl _)

/-- How many digits stand before the point is a matter of the number. -/
theorem digitCount_add {d : Decimal} (hd : d.digits ≠ 0) :
    d.exponent + digitCount d.digits = Int.log 10 d.value + 1 := by
  have hlog := @log_mul_zpow 10 _ (by decide) hd d.exponent
  rw [Nat.cast_ofNat] at hlog
  rw [value, hlog, digitCount_eq hd]
  omega

theorem value_eq_zero_iff (d : Decimal) : d.value = 0 ↔ d.digits = 0 := by
  rw [value, mul_eq_zero, Nat.cast_eq_zero]
  exact or_iff_left (by positivity)

/-- What a decimal with digits reads as. -/
theorem nearest_eq (b : BinaryLayout) {d : Decimal} (hd : d.digits ≠ 0) : d.nearest b =
    if reach < Int.log 10 d.value + 1 then b.infinity
    else if Int.log 10 d.value + 1 < -reach then 0
    else b.nearest d.ratio.1 d.ratio.2 := by
  rw [nearest, if_neg hd, digitCount_add hd]

/-- Equal decimals read alike. -/
theorem nearest_congr (b : BinaryLayout) {d d' : Decimal} (h : d.value = d'.value) :
    d.nearest b = d'.nearest b := by
  by_cases hd : d.digits = 0
  · have hd' : d'.digits = 0 := by rw [← value_eq_zero_iff, ← h, value_eq_zero_iff, hd]
    rw [nearest, nearest, if_pos hd, if_pos hd']
  · have hd' : d'.digits ≠ 0 := by rwa [ne_eq, ← value_eq_zero_iff, ← h, value_eq_zero_iff]
    rw [nearest_eq b hd, nearest_eq b hd', h]
    have hratio : b.nearest d.ratio.1 d.ratio.2 = b.nearest d'.ratio.1 d'.ratio.2 := by
      refine b.nearest_congr d.ratio_pos d'.ratio_pos ?_
      rw [← BinaryLayout.div_eq_div_iff_mul d.ratio_pos d'.ratio_pos, ratio_eq, ratio_eq, h]
    rw [hratio]

theorem value_strip (fuel : Nat) (d : Decimal) : (strip fuel d).value = d.value := by
  induction fuel generalizing d with
  | zero => rfl
  | succ fuel ih =>
      rw [strip]
      split
      · next h =>
        rw [ih, value, value]
        have hdigits : (d.digits : ℚ) = 10 * (d.digits / 10 : Nat) := by
          exact_mod_cast (Nat.mul_div_cancel' (Nat.dvd_of_mod_eq_zero h.2)).symm
        simp only
        rw [hdigits, zpow_add_one₀ (by norm_num)]
        ring
      · rfl

/-- The number that is written out is the one of the datum. -/
theorem value_full (m : Nat) (e : Int) : (full m e).value = Datum.magnitude m e := by
  rw [full, Datum.magnitude]
  split
  · next he =>
    have hexp : (5 : ℚ) ^ (-e).toNat = (5 ^ e)⁻¹ := by
      rw [← zpow_natCast, Int.toNat_of_nonneg (by omega), zpow_neg]
    have hten : (10 : ℚ) ^ e = 5 ^ e * 2 ^ e := by rw [← mul_zpow]; norm_num
    simp only [value, Nat.pow_eq]
    rw [Nat.cast_mul, Nat.cast_pow, Nat.cast_ofNat, hexp, hten, mul_assoc, inv_mul_cancel_left₀]
    positivity
  · next he =>
    simp only [value, Nat.pow_eq]
    rw [Nat.cast_mul, Nat.cast_pow, Nat.cast_ofNat, two_pow_toNat he, zpow_zero, mul_one]

end Decimal

namespace BinaryLayout

/-- Layouts whose numbers are all within the limits of decimals. -/
structure Reached (b : BinaryLayout) : Prop where
  least : -1100 ≤ b.leastExponent
  greatest : b.leastExponent + 2 ^ b.exponentBits + b.fractionBits + 1 ≤ 1100

theorem reached_single : single.Reached := ⟨by decide, by decide⟩

theorem reached_double : double.Reached := ⟨by decide, by decide⟩

variable {b : BinaryLayout} {pattern : Nat}

theorem parts_bounds (hpattern : pattern < b.infinity) :
    b.leastExponent ≤ (b.parts pattern).2 ∧
      (b.parts pattern).2 ≤ b.leastExponent + 2 ^ b.exponentBits ∧
      (b.parts pattern).1 < 2 ^ (b.fractionBits + 1) := by
  have hfraction : pattern % 2 ^ b.fractionBits < 2 ^ b.fractionBits :=
    Nat.mod_lt _ (Nat.two_pow_pos _)
  have hexponent : pattern / 2 ^ b.fractionBits < 2 ^ b.exponentBits := by
    refine Nat.div_lt_of_lt_mul (lt_of_lt_of_le hpattern ?_)
    rw [infinity, Nat.pow_eq, Nat.pow_eq, Nat.mul_comm]
    exact Nat.mul_le_mul_left _ (Nat.sub_le _ _)
  have hexponent' : ((pattern / 2 ^ b.fractionBits : Nat) : Int) < 2 ^ b.exponentBits := by
    exact_mod_cast hexponent
  have hpos : (0 : Int) < 2 ^ b.exponentBits := by positivity
  rw [Nat.pow_succ]
  unfold parts
  simp only [Nat.pow_eq]
  split
  · exact ⟨le_refl _, by omega, by omega⟩
  · refine ⟨by omega, by omega, by omega⟩

/-- Four digits hold more than eleven bits. -/
theorem two_zpow_le : (2 : ℚ) ^ (1100 : ℤ) ≤ 10 ^ (400 : ℤ) :=
  calc (2 : ℚ) ^ (1100 : ℤ) = (2 ^ 11) ^ 100 := by rw [← pow_mul]; rfl
    _ ≤ (10 ^ 4) ^ 100 := by
        gcongr
        norm_num
    _ = 10 ^ (400 : ℤ) := by rw [← pow_mul]; rfl

/-- The numbers of a layout are within powers of ten: no exponent is further from zero than
    the layout allows, and the digits make up for a few bits. -/
theorem Reached.magnitude_bounds (hb : b.Reached) (hpattern : pattern < b.infinity)
    (hne : (b.parts pattern).1 ≠ 0) :
    (10 : ℚ) ^ (-400 : ℤ) ≤ Datum.magnitude (b.parts pattern).1 (b.parts pattern).2 ∧
      Datum.magnitude (b.parts pattern).1 (b.parts pattern).2 < (10 : ℚ) ^ (400 : ℤ) := by
  obtain ⟨hleast, hgreatest, hdigits⟩ := parts_bounds hpattern
  have hb₁ := hb.least
  have hb₂ := hb.greatest
  generalize b.parts pattern = part at *
  obtain ⟨m, e⟩ := part
  simp only at hleast hgreatest hdigits hne ⊢
  have hm : (1 : ℚ) ≤ m := by exact_mod_cast Nat.one_le_iff_ne_zero.mpr hne
  rw [Datum.magnitude]
  -- Both bounds are powers of two, with room for the digits in the upper one.
  constructor
  · calc (10 : ℚ) ^ (-400 : ℤ) ≤ 2 ^ (-1100 : ℤ) := by
          rw [zpow_neg, zpow_neg]
          exact inv_anti₀ (by positivity) two_zpow_le
      _ ≤ 1 * 2 ^ e := by
          rw [one_mul]
          exact zpow_le_zpow_right₀ one_le_two (by omega)
      _ ≤ m * 2 ^ e := by gcongr
  · calc (m : ℚ) * 2 ^ e < 2 ^ ((b.fractionBits : ℤ) + 1) * 2 ^ e := by
          gcongr
          exact_mod_cast hdigits
      _ = 2 ^ ((b.fractionBits : ℤ) + 1 + e) := (zpow_add₀ two_ne_zero _ _).symm
      _ ≤ 2 ^ (1100 : ℤ) := zpow_le_zpow_right₀ one_le_two (by omega)
      _ ≤ 10 ^ (400 : ℤ) := two_zpow_le

/-- The numbers of a layout are within the limits of decimals. -/
theorem Reached.log_bounds (hb : b.Reached) (hpattern : pattern < b.infinity)
    (hne : (b.parts pattern).1 ≠ 0) :
    -Decimal.reach ≤ Int.log 10 (Datum.magnitude (b.parts pattern).1 (b.parts pattern).2) + 1 ∧
      Int.log 10 (Datum.magnitude (b.parts pattern).1 (b.parts pattern).2) + 1
        ≤ Decimal.reach := by
  have hpos := Datum.magnitude_pos hne (b.parts pattern).2
  obtain ⟨hlower, hupper⟩ := hb.magnitude_bounds hpattern hne
  have hlog₁ := (Int.zpow_le_iff_le_log (b := 10) (by decide) hpos).mp hlower
  have hlog₂ := (Int.lt_zpow_iff_log_lt (b := 10) (by decide) hpos).mp hupper
  rw [Decimal.reach]
  omega

end BinaryLayout

namespace Decimal

variable {b : BinaryLayout} {pattern : Nat}

/-- A number that is written out in full reads back. -/
theorem nearest_full (hb : b.Reached) (hpattern : pattern < b.infinity)
    (hne : (b.parts pattern).1 ≠ 0) :
    (full (b.parts pattern).1 (b.parts pattern).2).nearest b = pattern := by
  have hvalue := value_full (b.parts pattern).1 (b.parts pattern).2
  have hdigits : (full (b.parts pattern).1 (b.parts pattern).2).digits ≠ 0 := by
    rw [ne_eq, ← value_eq_zero_iff, hvalue]
    exact (Datum.magnitude_pos hne _).ne'
  obtain ⟨hlower, hupper⟩ := hb.log_bounds hpattern hne
  rw [nearest_eq b hdigits, hvalue, if_neg (not_lt.mpr hupper), if_neg (not_lt.mpr hlower)]
  exact b.nearest_parts hpattern.le (ratio_pos _) ((ratio_eq _).trans hvalue)

/-- What the search finds at an exponent reads back, because that is what is asked of it. -/
theorem nearest_around {tie : Tie} {num den : Nat} {exponent : Int} {d : Decimal}
    (h : around b tie pattern num den exponent = some d) : d.nearest b = pattern := by
  unfold around at h
  simp only at h
  generalize (if exponent < 0 then (num * Nat.pow 10 (-exponent).toNat, den)
    else (num, den * Nat.pow 10 exponent.toNat)) = scaled at h
  split at h
  · cases h
  · next hbelow _ => exact Option.some.inj h ▸ eq_of_beq hbelow
  · next _ habove => exact Option.some.inj h ▸ eq_of_beq habove
  · next hbelow habove =>
    -- Both read back, and it does not matter which of them is nearer.
    have hone : d = ⟨scaled.1 / scaled.2, exponent⟩ ∨ d = ⟨scaled.1 / scaled.2 + 1, exponent⟩ := by
      cases tie <;> simp only at h <;> split_ifs at h <;>
        first
        | exact Or.inl (Option.some.inj h).symm
        | exact Or.inr (Option.some.inj h).symm
    rcases hone with rfl | rfl
    · exact eq_of_beq hbelow
    · exact eq_of_beq habove

/-- The shortest decimal reads back. -/
theorem nearest_shortest (hb : b.Reached) (tie : Tie) (hpattern : pattern < b.infinity)
    (hpos : 0 < pattern) :
    (shortest b tie pattern).nearest b = pattern ∧ (shortest b tie pattern).digits ≠ 0 := by
  have hne : (b.parts pattern).1 ≠ 0 := fun h => hpos.ne' (BinaryLayout.eq_zero_of_parts h)
  have hread : (shortest b tie pattern).nearest b = pattern := by
    have hfull := nearest_full hb hpattern hne
    rw [shortest]
    generalize b.parts pattern = part at *
    obtain ⟨m, e⟩ := part
    simp only at hfull hne ⊢
    rw [if_neg hne]
    generalize (Datum.finite false m e).ratio = ratio
    rw [normal, nearest_congr b (value_strip _ _)]
    cases hfound : (List.range (longest b)).findSome? fun (i : Nat) =>
        around b tie pattern ratio.1 ratio.2 (floorLog ratio.1 ratio.2 - i) with
    | none => exact hfull
    | some d =>
        -- What was found was found at one of the exponents that were tried.
        obtain ⟨i, _, hi⟩ := List.exists_of_findSome?_eq_some hfound
        exact nearest_around hi
  -- Without digits it would read as zero.
  refine ⟨hread, fun hzero => ?_⟩
  rw [nearest, if_pos hzero] at hread
  exact hpos.ne hread

end Decimal

end MapStyling
