import MapStyling.WebScript.Property

/-!
# Names and Texts That Can Be Read Back

Texts that come from something, and that give it back.

A text is taken apart into code units for web scripts and put together again
where it leaves them. The units of a character never look like half of another
one, so reading them needs no look behind them, and a text comes back as it was.
Numbers are written in digits, for the elements of arrays and for the functions
of scene globals, and different numbers have different digits.

## Theorems

* `Units.display_ofString`: A text comes back from its code units.
* `Digits.text_injective`: Different numbers have different digits.
* `WebScript.index?_indexName`: The name of an index spells the index.
-/

namespace MapStyling

namespace Units

theorem toNat_isValid (c : Char) : c.toNat < 0xd800 ∨ 0xdfff < c.toNat ∧ c.toNat < 0x110000 :=
  c.valid

theorem isHigh_iff (u : UInt16) : isHigh u = true ↔ 0xd800 ≤ u.toNat ∧ u.toNat < 0xdc00 := by
  simp only [isHigh, Bool.and_eq_true, decide_eq_true_eq, UInt16.le_iff_toNat_le,
    UInt16.lt_iff_toNat_lt, UInt16.reduceToNat]

theorem isLow_iff (u : UInt16) : isLow u = true ↔ 0xdc00 ≤ u.toNat ∧ u.toNat < 0xe000 := by
  simp only [isLow, Bool.and_eq_true, decide_eq_true_eq, UInt16.le_iff_toNat_le,
    UInt16.lt_iff_toNat_lt, UInt16.reduceToNat]

/-- The units of a character are read as this character, whatever comes behind them. -/
theorem chars_ofChar_append (c : Char) (u : Units) : chars (ofChar c ++ u) = c :: chars u := by
  have hvalid := toNat_isValid c
  simp only [ofChar]
  split
  · next hsmall =>
    generalize hw : UInt16.ofNat c.toNat = w
    have hnat : w.toNat = c.toNat := by
      rw [← hw]
      exact UInt16.toNat_ofNat_of_lt' hsmall
    -- One unit is outside of both ranges of surrogates.
    have hhigh : isHigh w = false := by
      rw [← Bool.not_eq_true, isHigh_iff]
      omega
    have hlow : isLow w = false := by
      rw [← Bool.not_eq_true, isLow_iff]
      omega
    have hsingle : single w = [c] := by
      rw [single, hhigh, hlow, hnat, Char.ofNat_toNat]
      rfl
    cases u with
    | nil => simp only [List.append_nil, chars, hsingle]
    | cons v rest =>
        simp only [List.singleton_append, chars, hhigh, hsingle, Bool.false_and,
          Bool.false_eq_true, if_false]
  · next hlarge =>
    have hhigh : (UInt16.ofNat (0xd800 + (c.toNat - 0x10000) / 0x400)).toNat
        = 0xd800 + (c.toNat - 0x10000) / 0x400 := UInt16.toNat_ofNat_of_lt' (by
          simp only [UInt16.size]; omega)
    have hlow : (UInt16.ofNat (0xdc00 + (c.toNat - 0x10000) % 0x400)).toNat
        = 0xdc00 + (c.toNat - 0x10000) % 0x400 := UInt16.toNat_ofNat_of_lt' (by
          simp only [UInt16.size]; omega)
    generalize UInt16.ofNat (0xd800 + (c.toNat - 0x10000) / 0x400) = high at hhigh
    generalize UInt16.ofNat (0xdc00 + (c.toNat - 0x10000) % 0x400) = low at hlow
    -- Two units are one from each range, and the character is put together from both.
    have hpair : isHigh high && isLow low := by
      rw [Bool.and_eq_true, isHigh_iff, isLow_iff]
      omega
    have hchar : pair high low = c := by
      have hnat : 0x10000 + (high.toNat - 0xd800) * 0x400 + (low.toNat - 0xdc00) = c.toNat := by
        omega
      rw [pair, hnat, Char.ofNat_toNat]
    simp only [List.cons_append, List.nil_append, chars, hpair, if_true, hchar]

theorem chars_ofChars (s : List Char) : chars (ofChars s) = s := by
  induction s with
  | nil => rfl
  | cons c s ih =>
      rw [ofChars, List.flatMap_cons, chars_ofChar_append]
      exact congrArg (c :: ·) ih

/-- A text that goes through a script untouched comes out as it was. -/
theorem display_ofString (s : String) : display (ofString s) = s := by
  rw [display, ofString, chars_ofChars, String.ofList_toList]

theorem ofString_injective {s t : String} (h : ofString s = ofString t) : s = t := by
  rw [← display_ofString s, h, display_ofString]

end Units

namespace Digits

theorem digitsValue_toDigits (n : Nat) : Literal.digitsValue (Nat.toDigits 10 n) = n :=
  Nat.ofDigitChars_ten_toDigits

/-- Different numbers have different digits. -/
theorem text_injective {m n : Nat} (h : text m = text n) : m = n := by
  have hdigits : Nat.toDigits 10 m = Nat.toDigits 10 n := String.ofList_injective h
  rw [← digitsValue_toDigits m, hdigits, digitsValue_toDigits]

end Digits

namespace WebScript

theorem all_isDigit_toDigits (n : Nat) : (Nat.toDigits 10 n).all Char.isDigit = true :=
  List.all_eq_true.mpr fun _ hc => Nat.isDigit_of_mem_toDigits (by decide) (by decide) hc

theorem chars_indexName (n : Nat) : Units.chars (indexName n) = Nat.toDigits 10 n := by
  rw [indexName, Units.ofString, Units.chars_ofChars, Digits.text, String.toList_ofList]

/-- The name of an index spells the index. -/
theorem index?_indexName {n : Nat} (h : n < UInt32.size - 1) : index? (indexName n) = some n := by
  have hempty : (Nat.toDigits 10 n).isEmpty = false :=
    List.isEmpty_eq_false_iff.mpr Nat.toDigits_ne_nil
  simp only [index?, chars_indexName, hempty, all_isDigit_toDigits, Digits.digitsValue_toDigits,
    Bool.not_true, Bool.or_self, Bool.false_eq_true, if_false]
  rw [if_pos ⟨h, rfl⟩]

theorem indexName_injective {m n : Nat} (h : indexName m = indexName n) : m = n :=
  Digits.text_injective (Units.ofString_injective h)

/-- A name with a character that is no digit is none of an index. -/
theorem indexName_ne {s : String} (h : s.toList.all Char.isDigit = false) (n : Nat) :
    indexName n ≠ Units.ofString s := by
  intro heq
  have hchars := congrArg Units.chars heq
  rw [chars_indexName, Units.ofString, Units.chars_ofChars] at hchars
  rw [← hchars, all_isDigit_toDigits] at h
  cases h

end WebScript

end MapStyling
