import MapStyling.Proofs.NumberReadings
import MapStyling.Proofs.PlainTexts

/-!
# Plain Texts as Literals

The text of a finite number is a literal of the number.

Plain texts never have an exponent, so what is written for a finite number is a sign or none and
digits with a point. The rules for literals take that, and whoever reads the literal finds the
decimal that was shown. This is the decimal whose nearest pattern is the number.

## Theorems

* `NumberFormat.mem_literals_text`: The text of a finite number is a literal.
* `NumberFormat.literal?_double`: And it is a literal of the number.
-/

namespace MapStyling

open Grammar (Stops mantissaGoesOn stops_of_mem_mantissas exists_cons_of_mem_mantissas
  not_sign_of_goesOn)
open Literal (literals literal? mantissas)

namespace Literal

theorem mem_literals_of_mantissa (negative : Bool) {m : List Char} (hm : m ∈ mantissas) :
    (if negative then ['-'] else []) ++ m ∈ literals := by
  refine Language.mem_mul.mpr ⟨_, ?_, m, Language.mem_mul.mpr ⟨m, hm, [], Or.inr rfl,
    List.append_nil m⟩, rfl⟩
  cases negative with
  | false => exact Or.inr rfl
  | true => exact Or.inl (Or.inr rfl)

end Literal

namespace NumberFormat

/-- Digits with a point are a literal without sign and exponent. -/
theorem mem_mantissas_positionalText (d : Decimal) : (positionalText "" d).toList ∈ mantissas := by
  rcases positionalText_cases d with ⟨_, htext⟩ | ⟨a, b, _, htext, hne, _, hdigits⟩
  · rw [htext]
    refine Or.inl (Language.mem_mul.mpr ⟨_, ⟨fun h => ?_, fun c hc => ?_⟩, [], Or.inr rfl,
      List.append_nil _⟩)
    · exact Nat.toDigits_ne_nil (List.append_eq_nil_iff.mp h).1
    · exact (List.mem_append.mp hc).elim Literal.isDigit_of_mem_toDigits
        Literal.isDigit_of_mem_zeros
  · rw [htext]
    refine Or.inl (Language.mem_mul.mpr ⟨a, ⟨hne, fun c hc => ?_⟩, '.' :: b, Or.inl ?_, rfl⟩)
    · exact hdigits c (List.mem_append_left b hc)
    · exact Grammar.mem_singleton_mul.mpr
        ⟨b, fun c hc => hdigits c (List.mem_append_right a hc), rfl⟩

/-- The text of a finite number is a literal. -/
theorem mem_literals_text {b : BinaryLayout} {pattern m : Nat} {negative : Bool} {e : Int}
    (h : b.datum pattern = .finite negative m e) : (plain.text b pattern).toList ∈ literals := by
  have hzero : ['0'] ∈ mantissas := by
    have hdigits : ['0'] ∈ Literal.digits := ⟨List.cons_ne_nil _ _, fun c hc => by
      rw [List.mem_singleton.mp hc]
      rfl⟩
    exact Or.inl (Language.mem_mul.mpr ⟨['0'], hdigits, [], Or.inr rfl, rfl⟩)
  rw [text, h]
  simp only
  -- Zero is written as a digit, and all else with a point where its exponent is negative.
  split
  · have hmem := Literal.mem_literals_of_mantissa negative hzero
    cases negative with
    | false => exact hmem
    | true => exact hmem
  · have hmem := Literal.mem_literals_of_mantissa negative
      (mem_mantissas_positionalText (Decimal.shortest b .larger (pattern % b.signBit)))
    rw [String.toList_append]
    cases negative with
    | false => exact hmem
    | true => exact hmem

/-- A literal is read as it is read backwards. -/
theorem literal?_eq_patternOf? {w : List Char} (h : w ∈ literals) :
    literal? w = (patternOf? .double w).map fun pattern => .ofBits (.ofNat pattern) := by
  obtain ⟨s, hs, v, hv, rfl⟩ := Language.mem_mul.mp h
  obtain ⟨m, hm, e, he, rfl⟩ := Language.mem_mul.mp hv
  obtain ⟨negative, hsign⟩ := Literal.sign_append hs
    (stops_of_mem_mantissas (r := e) hm fun c hc => not_sign_of_goesOn hc)
  obtain ⟨c, u, rfl, hc⟩ := exists_cons_of_mem_mantissas hm
  -- The words begin with letters, and what is left of a literal behind its sign does not.
  have hletter : ∀ {d : Char} {word : List Char}, mantissaGoesOn d = false →
      c :: u ++ e ≠ d :: word := by
    intro d word hd heq
    rw [(List.cons.inj heq).1, hd] at hc
    exact Bool.false_ne_true hc
  have hinfinity : c :: u ++ e ≠ plain.infinity.toList := hletter rfl
  have hnan : c :: u ++ e ≠ plain.nan.toList := hletter rfl
  simp only [patternOf?, literal?, hsign, if_neg hinfinity, if_neg hnan, Option.map_map]
  rfl

/-- The text of a finite number is a literal of the number. -/
theorem literal?_double {x : Float} {negative : Bool} {m : Nat} {e : Int}
    (h : Double.datum x = .finite negative m e) :
    (plain.double x).toList ∈ literals ∧ literal? (plain.double x).toList = some x := by
  have hmem : (plain.double x).toList ∈ literals := mem_literals_text h
  have hpattern : patternOf? .double (plain.double x).toList = some x.toBits.toNat := by
    refine patternOf?_text BinaryLayout.reached_double x.toBits.toNat_lt fun hnan => ?_
    rw [Double.datum, hnan] at h
    cases h
  refine ⟨hmem, ?_⟩
  rw [literal?_eq_patternOf? hmem, hpattern, Option.map_some, UInt64.ofNat_toNat,
    Float.ofBits_toBits]

end NumberFormat

end MapStyling
