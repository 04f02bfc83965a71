import MapStyling.Measure
import MapStyling.Proofs.Floats
import MapStyling.Proofs.Rounding

/-!
# Extents

The numbers that widths and sizes may have.

A number is made single before it is asked whether it may be a width. So a width that is too
large for a single is as little a width as one below zero, and one that is too small becomes
zero, whose sign does not matter. Rounding keeps the sign, so whatever is not below zero stays
so, and all that can happen to it is that it is too large.

## Main definitions

* `Single.IsExtent`: The numbers that widths and sizes may have.

## Theorems

* `Width.ofNumber_eq_ok_iff`: What is let through as a width.
* `Double.datum_toSingle`: What the single of a finite number is.
* `Double.toSingle_eq_nan_iff`: No number becomes the single that is not a number.
* `Single.isExtent_toSingle`: A number that is not below zero is let through if its single is
  finite.
-/

namespace MapStyling

/-- The numbers that widths and sizes may have: finite ones that are not below zero. -/
def Single.IsExtent (v : Float32) : Prop := ∃ q, (Single.datum v).value? = some q ∧ 0 ≤ q

theorem Single.isExtent_iff {v : Float32} {negative : Bool} {m : Nat} {e : Int}
    (h : Single.datum v = .finite negative m e) :
    Single.IsExtent v ↔ (negative = true → m = 0) := by
  simp only [IsExtent, h, Datum.value?, Option.some.injEq, exists_eq_left']
  have hnonneg : 0 ≤ Datum.magnitude m e := by
    rw [Datum.magnitude]
    positivity
  cases negative with
  | false => simpa using hnonneg
  | true =>
      rw [if_pos rfl, neg_nonneg]
      constructor
      · intro hle _
        by_contra hm
        exact absurd hle (not_le.mpr (Datum.magnitude_pos hm e))
      · intro hm
        rw [hm rfl, Datum.magnitude_zero]

theorem Single.isExtent_of_datum {v : Float32} {m : Nat} {e : Int}
    (h : Single.datum v = .finite false m e) : Single.IsExtent v :=
  (isExtent_iff h).mpr fun hsign => by cases hsign

theorem Single.isExtent_zero : Single.IsExtent Single.zero :=
  isExtent_of_datum (m := 0) (e := -149) (by decide)

/-- What is let through as a width. -/
theorem Width.ofNumber_eq_ok_iff {v : Float32} {unit : MeasureUnit} {w : Width} :
    Width.ofNumber v unit = .ok w ↔ Single.IsExtent v ∧ w = ⟨v, unit⟩ := by
  rw [Width.ofNumber]
  cases hv : Single.datum v with
  | nan | infinite negative =>
      refine iff_of_false (fun h => by cases h) ?_
      rintro ⟨⟨q, hq, _⟩, _⟩
      rw [hv] at hq
      cases hq
  | finite negative m e =>
      rw [Single.isExtent_iff hv]
      -- A sign is let through where there is nothing behind it.
      by_cases hbelow : negative = true ∧ m ≠ 0
      · simp only [hbelow.1, hbelow.2, ne_eq, not_false_eq_true, decide_true,
          Bool.and_true, if_true]
        exact iff_of_false (fun h => by cases h) fun h => by simpa using h.1
      · have hcond : (negative && decide (m ≠ 0)) = false := by
          refine Bool.eq_false_iff.mpr fun h => hbelow ?_
          rwa [Bool.and_eq_true, decide_eq_true_eq] at h
        simp only [hcond, Bool.false_eq_true, if_false]
        constructor
        · rintro ⟨⟩
          exact ⟨fun hsign => not_not.mp fun hm => hbelow ⟨hsign, hm⟩, rfl⟩
        · rintro ⟨_, rfl⟩
          rfl

/-- What the single of a finite number is. -/
theorem Double.datum_toSingle {x : Float} {negative : Bool} {m : Nat} {e : Int}
    (h : Double.datum x = .finite negative m e) :
    let magnitude := BinaryLayout.single.nearest (Datum.finite negative m e).ratio.1
      (Datum.finite negative m e).ratio.2
    Single.datum (Double.toSingle x) = if magnitude = BinaryLayout.single.infinity
      then .infinite negative
      else .finite negative (BinaryLayout.single.parts magnitude).1
        (BinaryLayout.single.parts magnitude).2 := by
  intro magnitude
  have hle : magnitude ≤ BinaryLayout.single.infinity := BinaryLayout.single.nearest_le _ _
  have hdatum := BinaryLayout.single.datum_signed negative hle
  -- A finite number is not rounded to something that is not a number.
  have hne : BinaryLayout.single.datum (BinaryLayout.single.signed negative magnitude) ≠ .nan := by
    rw [hdatum]
    split <;> exact Datum.noConfusion
  have hlt : BinaryLayout.single.signed negative magnitude < 2 ^ 32 := by
    have hmax : BinaryLayout.single.signBit + BinaryLayout.single.infinity < 2 ^ 32 := by decide
    rw [BinaryLayout.signed]
    split <;> omega
  rw [← hdatum, Single.datum, Double.toSingle, h]
  exact congrArg BinaryLayout.single.datum (Single.toBits_ofBits hlt hne)

/-- No number becomes the single that is not a number. -/
theorem Double.toSingle_eq_nan_iff {x : Float} :
    Double.toSingle x = Single.nan ↔ Double.datum x = .nan := by
  have hnan : Single.datum Single.nan = .nan := by decide
  constructor
  · intro h
    -- Infinity stays infinite, and a finite number becomes a finite single or an infinite one.
    have hsingle : Single.datum (Double.toSingle x) = .nan := by rw [h, hnan]
    cases hx : Double.datum x with
    | nan => rfl
    | infinite negative =>
        rw [Double.toSingle, hx] at hsingle
        cases negative with
        | false => exact absurd hsingle (by decide)
        | true => exact absurd hsingle (by decide)
    | finite negative m e =>
        rw [Double.datum_toSingle hx] at hsingle
        split at hsingle <;> cases hsingle
  · intro h
    rw [Double.toSingle, h]
    rfl

/-- A number that is not below zero is one that widths may have, unless it is too large. -/
theorem Single.isExtent_toSingle {x : Float} {q : ℚ} (h : (Double.datum x).value? = some q)
    (hq : 0 ≤ q) (hfinite : ∃ r, (Single.datum (Double.toSingle x)).value? = some r) :
    Single.IsExtent (Double.toSingle x) := by
  obtain ⟨negative, m, e, hx⟩ := Datum.exists_finite h
  have hdatum := Double.datum_toSingle hx
  simp only at hdatum
  split at hdatum
  · obtain ⟨r, hr⟩ := hfinite
    rw [hdatum] at hr
    cases hr
  · refine (Single.isExtent_iff hdatum).mpr fun hsign => ?_
    subst hsign
    -- Behind a sign there is nothing but zero, which stays zero.
    have hm : m = 0 := by
      by_contra hm
      rw [hx, Datum.value?, if_pos rfl, Option.some.injEq] at h
      have hpos := Datum.magnitude_pos hm e
      linarith
    subst hm
    rw [Datum.ratio_zero, BinaryLayout.nearest, if_pos rfl]
    rfl

end MapStyling
