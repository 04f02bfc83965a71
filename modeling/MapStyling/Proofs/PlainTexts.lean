import MapStyling.Number.Layout
import MapStyling.Proofs.Decimals
import MapStyling.Proofs.Floats
import MapStyling.Proofs.Grammar.Numbers
import MapStyling.Proofs.Names

/-!
# Plain Texts of Numbers

The text of a number determines the number.

A text is read backwards: its sign is taken off, the two words for what has no digits are
looked up, and digits with a point are a decimal whose nearest pattern is the number. For this
the point may stand anywhere. Zeros that are put behind the digits or in front of them to get
the point to its place change the decimal that is read, and not the number that it is.

Only the number that is not a number has more than one pattern, and of those only one is ever
used. Zero has two texts as it has two patterns.

## Main definitions

* `NumberFormat.patternOf?`: Reading a text backwards.
* `NumberFormat.isPlain`: Characters of plain texts.

## Theorems

* `Decimal.unsigned?_positionalText`: Digits with a point are read as the decimal they show.
* `NumberFormat.patternOf?_text`: A text is read as the pattern it was written for.
* `NumberFormat.single_injective`: Different numbers have different texts.
-/

namespace MapStyling

open Grammar (Stops stops_cons mantissaGoesOn)

namespace Literal

theorem digitsValue_eq (ds : List Char) : digitsValue ds = Nat.ofDigitChars 10 ds 0 := rfl

theorem digitsValue_append_zeros (n k : Nat) :
    digitsValue (Nat.toDigits 10 n ++ List.replicate k '0') = n * 10 ^ k := by
  rw [digitsValue_eq, Nat.ofDigitChars_append, Nat.ofDigitChars_ten_toDigits,
    Nat.ofDigitChars_replicate_zero, Nat.mul_comm]

theorem digitsValue_zeros_append (n k : Nat) :
    digitsValue (List.replicate k '0' ++ Nat.toDigits 10 n) = n := by
  rw [digitsValue_eq, Nat.ofDigitChars_append, Nat.ofDigitChars_replicate_zero, Nat.mul_zero,
    Nat.ofDigitChars_ten_toDigits]

theorem isDigit_of_mem_toDigits {n : Nat} {c : Char} (h : c ∈ Nat.toDigits 10 n) :
    c.isDigit = true := Nat.isDigit_of_mem_toDigits (by decide) (by decide) h

theorem isDigit_of_mem_zeros {k : Nat} {c : Char} (h : c ∈ List.replicate k '0') :
    c.isDigit = true := by
  rw [List.eq_of_mem_replicate h]
  rfl

/-- There is no sign to take off a text that begins with none. -/
theorem sign_of_stops {r : List Char} (h : Stops (fun c => c = '+' || c = '-') r) :
    sign r = (false, r) := by
  rw [sign.eq_def]
  split
  · exact absurd (stops_cons.mp h) (by decide)
  · exact absurd (stops_cons.mp h) (by decide)
  · rfl

end Literal

namespace NumberFormat

open Literal

/-- The parts of digits with a point: digits behind which zeros stand, digits around the point,
    or a zero before it and zeros behind it. -/
theorem positionalText_cases (d : Decimal) :
    (0 ≤ d.exponent ∧ (positionalText "" d).toList
      = Nat.toDigits 10 d.digits ++ List.replicate d.exponent.toNat '0') ∨
    ∃ a b, d.exponent = -(b.length : Int) ∧ (positionalText "" d).toList = a ++ '.' :: b ∧
      a ≠ [] ∧ digitsValue (a ++ b) = d.digits ∧ ∀ c ∈ a ++ b, c.isDigit = true := by
  unfold positionalText
  simp only
  split
  · next h => exact Or.inl ⟨h, by simp⟩
  · next h =>
    refine Or.inr ?_
    split
    · next hplaces =>
      -- There are more digits than places, so the point stands between two of them.
      refine ⟨(Nat.toDigits 10 d.digits).take ((Nat.toDigits 10 d.digits).length
          - (-d.exponent).toNat), (Nat.toDigits 10 d.digits).drop
          ((Nat.toDigits 10 d.digits).length - (-d.exponent).toNat), ?_, ?_, ?_, ?_, ?_⟩
      · rw [List.length_drop]
        omega
      · simp
      · rw [ne_eq, List.take_eq_nil_iff]
        exact not_or_intro (by omega) Nat.toDigits_ne_nil
      · rw [List.take_append_drop]
        exact Digits.digitsValue_toDigits _
      · rw [List.take_append_drop]
        exact fun c => isDigit_of_mem_toDigits
    · next hplaces =>
      -- All digits stand behind the point, and zeros fill the places in front of them.
      refine ⟨['0'], List.replicate ((-d.exponent).toNat - (Nat.toDigits 10 d.digits).length) '0'
          ++ Nat.toDigits 10 d.digits, ?_, ?_, List.cons_ne_nil _ _, ?_, ?_⟩
      · rw [List.length_append, List.length_replicate]
        omega
      · simp
      · rw [← List.append_assoc, ← List.replicate_one, List.replicate_append_replicate]
        exact digitsValue_zeros_append _ _
      · intro c hc
        rcases List.mem_append.mp hc with hc | hc
        · rw [List.mem_singleton.mp hc]
          rfl
        · exact (List.mem_append.mp hc).elim isDigit_of_mem_zeros isDigit_of_mem_toDigits

/-- Digits with a point are read as the decimal they show. -/
theorem unsigned?_positionalText (d : Decimal) :
    ∃ d', unsigned? (positionalText "" d).toList = some d' ∧ d'.value = d.value := by
  rcases positionalText_cases d with ⟨hexp, htext⟩ | ⟨a, b, hexp, htext, hne, hvalue, hdigits⟩
  · have hmem : Nat.toDigits 10 d.digits ++ List.replicate d.exponent.toNat '0' ∈ digits := by
      refine ⟨fun h => Nat.toDigits_ne_nil (List.append_eq_nil_iff.mp h).1, fun c hc => ?_⟩
      exact (List.mem_append.mp hc).elim isDigit_of_mem_toDigits isDigit_of_mem_zeros
    have hread := unsigned?_whole hmem (Grammar.stops_nil mantissaGoesOn)
    rw [List.append_nil, digitsValue_append_zeros] at hread
    refine ⟨_, htext ▸ hread, ?_⟩
    -- Without a fraction the exponent is a number of zeros.
    have hpow : (10 : ℚ) ^ d.exponent.toNat = 10 ^ d.exponent := by
      rw [← zpow_natCast, Int.toNat_of_nonneg hexp]
    simp only [Decimal.value, Nat.cast_mul, Nat.cast_pow, Nat.cast_ofNat, hpow, zpow_zero, mul_one]
  · have hread := unsigned?_pointed (fun c hc => hdigits c (List.mem_append_left b hc))
      (fun c hc => hdigits c (List.mem_append_right a hc)) (Or.inl hne)
      (Grammar.stops_nil Char.isDigit)
    rw [List.append_nil] at hread
    refine ⟨_, htext ▸ hread, ?_⟩
    simp only [Decimal.value, hvalue, hexp, Int.zero_sub]

theorem goesOn_of_mem_positionalText {d : Decimal} {c : Char}
    (h : c ∈ (positionalText "" d).toList) : mantissaGoesOn c = true := by
  have hdigit : ∀ {c : Char}, c.isDigit = true → mantissaGoesOn c = true := fun h => by
    rw [mantissaGoesOn, h, Bool.true_or]
  rcases positionalText_cases d with ⟨_, htext⟩ | ⟨a, b, _, htext, _, _, hdigits⟩
  · rw [htext] at h
    exact hdigit ((List.mem_append.mp h).elim isDigit_of_mem_toDigits isDigit_of_mem_zeros)
  · rw [htext] at h
    rcases List.mem_append.mp h with h | h
    · exact hdigit (hdigits c (List.mem_append_left b h))
    · rcases List.mem_cons.mp h with rfl | h
      · rfl
      · exact hdigit (hdigits c (List.mem_append_right a h))

/-- The pattern that a plain text was written for. -/
def patternOf? (b : BinaryLayout) (cs : List Char) : Option Nat :=
  let (negative, r) := sign cs
  if r = plain.infinity.toList then some (b.signed negative b.infinity)
  else if r = plain.nan.toList then some b.quietNaN
  else (unsigned? r).map fun d => b.signed negative (d.nearest b)

/-- A text of digits behind a sign is read as the nearest pattern. -/
theorem patternOf?_positionalText (b : BinaryLayout) (negative : Bool) (d : Decimal) :
    patternOf? b ((if negative then "-" else "") ++ positionalText "" d).toList
      = some (b.signed negative (d.nearest b)) := by
  obtain ⟨d', hread, hvalue⟩ := unsigned?_positionalText d
  have hgoesOn := fun c => @goesOn_of_mem_positionalText d c
  generalize positionalText "" d = text at *
  have hsign : sign ((if negative then "-" else "") ++ text).toList = (negative, text.toList) := by
    cases negative with
    | false =>
        rw [if_neg Bool.false_ne_true, String.empty_append]
        exact sign_of_stops fun c hc => Grammar.not_sign_of_goesOn
          (hgoesOn c (List.mem_of_head? hc))
    | true => rw [if_pos rfl, String.toList_append]; rfl
  -- The words for what has no digits are made of letters.
  have hword : ∀ {word : List Char}, (∃ c ∈ word, mantissaGoesOn c = false) →
      text.toList ≠ word := by
    rintro _ ⟨c, hc, hletter⟩ rfl
    rw [hgoesOn c hc] at hletter
    exact Bool.false_ne_true hletter.symm
  simp only [patternOf?, hsign]
  rw [if_neg (hword ⟨'i', by decide, rfl⟩), if_neg (hword ⟨'N', by decide, rfl⟩), hread,
    Option.map_some, Decimal.nearest_congr b hvalue]

theorem patternOf?_infinity (b : BinaryLayout) (negative : Bool) :
    patternOf? b (if negative then "-" ++ plain.infinity else plain.infinity).toList
      = some (b.signed negative b.infinity) := by
  have hsign : sign (if negative then "-" ++ plain.infinity else plain.infinity).toList
      = (negative, plain.infinity.toList) := by
    cases negative <;> rfl
  simp only [patternOf?, hsign, if_true]

theorem patternOf?_nan (b : BinaryLayout) : patternOf? b plain.nan.toList = some b.quietNaN := by
  have hsign : sign plain.nan.toList = (false, plain.nan.toList) := rfl
  have hne : plain.nan.toList ≠ plain.infinity.toList := by decide
  simp only [patternOf?, hsign, if_neg hne, if_true]

/-- A pattern is its sign and what is left of it. -/
theorem exists_signed {b : BinaryLayout} {pattern : Nat} (h : pattern < 2 * b.signBit) :
    ∃ negative, pattern = b.signed negative (pattern % b.signBit) := by
  by_cases hsign : b.signBit ≤ pattern
  · refine ⟨true, ?_⟩
    rw [BinaryLayout.signed, if_pos rfl, Nat.mod_eq_sub_mod hsign, Nat.mod_eq_of_lt (by omega)]
    omega
  · exact ⟨false, (Nat.mod_eq_of_lt (Nat.not_le.mp hsign)).symm⟩

/-- The shortest digits of a number are read as the pattern they were found for. -/
theorem patternOf?_shortest {b : BinaryLayout} (hb : b.Reached) {magnitude : Nat}
    (hlt : magnitude < b.infinity) (hpos : 0 < magnitude) (negative : Bool) :
    patternOf? b ((if negative then "-" else "")
        ++ positionalText "" (Decimal.shortest b .larger magnitude)).toList
      = some (b.signed negative magnitude) := by
  rw [patternOf?_positionalText, (Decimal.nearest_shortest hb .larger hlt hpos).1]

/-- A text is read as the pattern it was written for. -/
theorem patternOf?_text {b : BinaryLayout} (hb : b.Reached) {pattern : Nat}
    (hpattern : pattern < 2 * b.signBit) (hnan : b.datum pattern = .nan → pattern = b.quietNaN) :
    patternOf? b (plain.text b pattern).toList = some pattern := by
  obtain ⟨negative, hsigned⟩ := exists_signed hpattern
  -- Without its sign a pattern is a number, the infinite one, or beyond that no number.
  rw [text]
  by_cases hle : pattern % b.signBit ≤ b.infinity
  · have hdatum := b.datum_signed negative hle
    rw [← hsigned] at hdatum
    rw [hdatum]
    by_cases hinf : pattern % b.signBit = b.infinity
    · rw [if_pos hinf]
      rw [hinf] at hsigned
      exact (patternOf?_infinity b negative).trans (congrArg some hsigned.symm)
    · rw [if_neg hinf]
      simp only
      by_cases hzero : (b.parts (pattern % b.signBit)).1 = 0
      · rw [BinaryLayout.eq_zero_of_parts hzero] at hsigned
        rw [if_pos hzero, hsigned]
        cases negative <;> rfl
      · have hpos : 0 < pattern % b.signBit := by
          refine Nat.pos_of_ne_zero fun h => hzero ?_
          rw [h, BinaryLayout.parts, Nat.zero_div, if_pos rfl, Nat.zero_mod]
        have hread := patternOf?_shortest hb (lt_of_le_of_ne hle hinf) hpos negative
        rw [← hsigned] at hread
        rw [if_neg hzero]
        exact hread
  · have hnan' := (b.datum_eq_nan_iff_lt pattern).mpr (Nat.not_le.mp hle)
    rw [hnan']
    exact (patternOf?_nan b).trans (congrArg some (hnan hnan').symm)

/-- Numbers with the same text are the same. -/
theorem single_injective {x y : Float32} (h : plain.single x = plain.single y) : x = y := by
  have hread : ∀ x : Float32, patternOf? .single (plain.single x).toList = some x.toBits.toNat := by
    intro x
    refine patternOf?_text BinaryLayout.reached_single x.toBits.toNat_lt fun hnan => ?_
    rw [(Single.datum_eq_nan_iff x).mp hnan]
    rfl
  have hbits : x.toBits.toNat = y.toBits.toNat :=
    Option.some.inj (by rw [← hread x, ← hread y, h])
  exact Float32.toBits_inj.mp (UInt32.toNat_inj.mp hbits)

/-- Characters of plain texts. -/
def isPlain (c : Char) : Bool := mantissaGoesOn c || "-infNaN".toList.contains c

theorem isPlain_of_mem_text {b : BinaryLayout} {pattern : Nat} {c : Char}
    (h : c ∈ (plain.text b pattern).toList) : isPlain c = true := by
  have hword : ∀ {s : String}, s.toList.all isPlain = true → c ∈ s.toList → isPlain c = true :=
    fun hs hc => List.all_eq_true.mp hs c hc
  rw [text] at h
  split at h
  · exact hword (by decide) h
  · split at h <;> exact hword (by decide) h
  · split at h
    · split at h <;> exact hword (by decide) h
    · simp only [plain, if_true, String.toList_append] at h
      rcases List.mem_append.mp h with h | h
      · split at h <;> exact hword (by decide) h
      · rw [isPlain, goesOn_of_mem_positionalText h, Bool.true_or]

end NumberFormat

end MapStyling
