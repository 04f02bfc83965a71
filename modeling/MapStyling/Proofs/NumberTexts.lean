import MapStyling.Number.Digits
import MapStyling.Number.Literal
import MapStyling.Proofs.Names
import MapStyling.Proofs.Trimmed

/-!
# Texts of Numbers

What numbers look like in texts that are made of more than numbers.

A text that spells a number is made of digits, letters, points and signs. So whoever cuts
a text apart at blanks, colons or quotes does not cut a number. The digits of a whole number
spell it again as long as it is in the range of the reader, the two ends of the range
included.

## Main definitions

* `Literal.isNumeric`: Characters of texts that spell numbers.

## Theorems

* `Literal.isNumeric_of_spelled`: What such texts are made of.
* `Literal.integer?_signed`: Whole numbers are read back.
-/

namespace MapStyling

namespace Literal

/-- Characters of texts that spell numbers. -/
def isNumeric (c : Char) : Bool := c.isAlphanum || c = '.' || c = '+' || c = '-'

theorem isNumeric_of_isDigit {c : Char} (h : c.isDigit = true) : isNumeric c = true := by
  simp only [isNumeric, Char.isAlphanum, h, Bool.or_true, Bool.true_or]

theorem isNumeric_of_isAlpha {c : Char} (h : c.isAlpha = true) : isNumeric c = true := by
  simp only [isNumeric, Char.isAlphanum, h, Bool.true_or]

theorem isNumeric_of_isUpper {c : Char} (h : c.isUpper = true) : isNumeric c = true :=
  isNumeric_of_isAlpha (Bool.or_eq_true_iff.mpr (Or.inl h))

theorem isNumeric_of_isLower {c : Char} (h : c.isLower = true) : isNumeric c = true :=
  isNumeric_of_isAlpha (Bool.or_eq_true_iff.mpr (Or.inr h))

theorem isAlpha_eq (c : Char) : c.isAlpha
    = (decide (65 ≤ c.val ∧ c.val ≤ 90) || (decide (97 ≤ c.val) && decide (c.val ≤ 122))) := rfl

theorem not_isBlank_of_isNumeric {c : Char} (h : isNumeric c = true) : Text.isBlank c = false := by
  simp only [isNumeric, Char.isAlphanum, isAlpha_eq, Char.isDigit, Bool.or_eq_true,
    Bool.and_eq_true, decide_eq_true_eq, ge_iff_le, UInt32.le_iff_toNat_le] at h
  change (((((65 ≤ c.toNat ∧ c.toNat ≤ 90) ∨ (97 ≤ c.toNat ∧ c.toNat ≤ 122)) ∨
    (48 ≤ c.toNat ∧ c.toNat ≤ 57)) ∨ c = '.') ∨ c = '+') ∨ c = '-' at h
  rcases h with ((h | rfl) | rfl) | rfl
  · simp only [Text.isBlank, Bool.or_eq_false_iff, Bool.and_eq_false_iff, decide_eq_false_iff_not]
    omega
  · rfl
  · rfl
  · rfl

/-- What a sign is taken from has it in front, or none. -/
theorem mem_of_sign {s r : List Char} {negative : Bool} (h : sign s = (negative, r)) {c : Char}
    (hc : c ∈ s) : c ∈ r ∨ isNumeric c = true := by
  rw [sign.eq_def] at h
  split at h
  · cases h
    exact (List.mem_cons.mp hc).symm.imp_right fun hc => by rw [hc]; rfl
  · cases h
    exact (List.mem_cons.mp hc).symm.imp_right fun hc => by rw [hc]; rfl
  · cases h
    exact Or.inl hc

theorem isNumeric_of_exponent {s : List Char} (h : (exponent? s).isSome = true) {c : Char}
    (hc : c ∈ s) : isNumeric c = true := by
  cases s with
  | nil => exact absurd hc List.not_mem_nil
  | cons e s =>
      rw [exponent?] at h
      split at h
      · next he =>
        rcases hsign : sign s with ⟨negative, ds⟩
        simp only [hsign] at h
        split at h
        · cases h
        · next hds =>
          have hdigits : ∀ d ∈ ds, d.isDigit = true := by
            rw [Bool.or_eq_true, not_or, Bool.not_eq_true', Bool.not_eq_false] at hds
            exact List.all_eq_true.mp hds.2
          -- The letter, the sign and the digits are all that an exponent has.
          rcases List.mem_cons.mp hc with rfl | hc
          · rcases he with rfl | rfl <;> rfl
          · rcases mem_of_sign hsign hc with hc | hc
            · exact isNumeric_of_isDigit (hdigits c hc)
            · exact hc
      · cases h

theorem isNumeric_of_unsigned {s : List Char} (h : (unsigned? s).isSome = true) {c : Char}
    (hc : c ∈ s) : isNumeric c = true := by
  have hdigits : ∀ {s : List Char} {c : Char}, c ∈ s.takeWhile Char.isDigit → isNumeric c = true :=
    fun hc => isNumeric_of_isDigit (List.all_eq_true.mp List.all_takeWhile _ hc)
  rw [← List.takeWhile_append_dropWhile (p := Char.isDigit) (l := s)] at hc
  rw [unsigned?] at h
  -- A character is of the first digits, or of what is behind them.
  rcases List.mem_append.mp hc with hc | hc
  · exact hdigits hc
  · generalize s.dropWhile Char.isDigit = rest at h hc
    split at h
    next fraction exponent hparts =>
      split at h
      · cases h
      · rw [Option.isSome_map] at h
        split at hparts
        · next r =>
          cases hparts
          rcases List.mem_cons.mp hc with rfl | hc
          · rfl
          · rw [← List.takeWhile_append_dropWhile (p := Char.isDigit) (l := r)] at hc
            exact (List.mem_append.mp hc).elim hdigits (isNumeric_of_exponent h)
        · cases hparts
          exact isNumeric_of_exponent h hc

theorem isNumeric_of_toLower {c d : Char} (h : c.toLower = d) (hd : d.isLower = true) :
    isNumeric c = true := by
  unfold Char.toLower at h
  split at h
  · next hupper => exact isNumeric_of_isUpper (decide_eq_true hupper)
  · exact isNumeric_of_isLower (h ▸ hd)

/-- What texts that spell numbers are made of. -/
theorem isNumeric_of_spelled {s : List Char} {v : Float} (h : spelled? s = some v) {c : Char}
    (hc : c ∈ s) : isNumeric c = true := by
  rcases hsign : sign s with ⟨negative, r⟩
  rcases mem_of_sign hsign hc with hr | hc'
  · have hword : ∀ {word : String}, String.ofList (r.map Char.toLower) = word →
        word.toList.all Char.isLower = true → isNumeric c = true := by
      intro word hword hlower
      refine isNumeric_of_toLower rfl (List.all_eq_true.mp hlower _ ?_)
      rw [← hword, String.toList_ofList]
      exact List.mem_map_of_mem hr
    -- A text is one of three words, in whatever case, or a literal.
    rw [spelled?, hsign] at h
    simp only at h
    split at h
    · next hwords =>
      rcases hwords with hwords | hwords
      · exact hword hwords (by decide)
      · exact hword hwords (by decide)
    · split at h
      · next hwords => exact hword hwords (by decide)
      · rw [literal?, hsign] at h
        change (unsigned? r).map (Decimal.nearestDouble negative) = some v at h
        have hsome : (unsigned? r).isSome = true := by
          rw [← Option.isSome_map (f := Decimal.nearestDouble negative), h]
          rfl
        exact isNumeric_of_unsigned hsome hr
  · exact hc'

/-- The value of digits behind others. -/
def digitsFrom (n : Nat) (ds : List Char) : Nat :=
  ds.foldl (fun n d => 10 * n + (d.toNat - '0'.toNat)) n

theorem le_digitsFrom (n : Nat) (ds : List Char) : n ≤ digitsFrom n ds := by
  induction ds generalizing n with
  | nil => exact Nat.le_refl n
  | cons d ds ih =>
      have hnext := ih (10 * n + (d.toNat - '0'.toNat))
      rw [digitsFrom, List.foldl_cons]
      rw [digitsFrom] at hnext
      omega

/-- Digits are read if their value is in range, because no beginning of them has a larger one. -/
theorem readDigits_of_le {limit : Nat} {overflow : IntegerError} {n : Nat} {ds : List Char}
    (hds : ∀ d ∈ ds, d.isDigit = true) (h : digitsFrom n ds ≤ limit) :
    readDigits limit overflow n ds = .ok (digitsFrom n ds) := by
  induction ds generalizing n with
  | nil => rfl
  | cons d ds ih =>
      have hd : d.isDigit = true := hds d List.mem_cons_self
      have hnext := le_digitsFrom (10 * n + (d.toNat - '0'.toNat)) ds
      have hle : ¬limit < 10 * n + (d.toNat - '0'.toNat) :=
        Nat.not_lt.mpr (Nat.le_trans hnext h)
      rw [readDigits, hd]
      simp only [Bool.not_true, Bool.false_eq_true, if_false, hle]
      exact ih (fun e he => hds e (List.mem_cons_of_mem _ he)) h

theorem readDigits_toDigits {limit n : Nat} (overflow : IntegerError) (h : n ≤ limit) :
    readDigits limit overflow 0 (Nat.toDigits 10 n) = .ok n := by
  have hvalue : digitsFrom 0 (Nat.toDigits 10 n) = n := Digits.digitsValue_toDigits n
  rw [readDigits_of_le (List.all_eq_true.mp (WebScript.all_isDigit_toDigits n)) (by rwa [hvalue]),
    hvalue]

/-- Digits without a sign are a whole number that is not negative. -/
theorem integer?_of_digits {ds : List Char} (hne : ds ≠ []) (hds : ∀ d ∈ ds, d.isDigit = true) :
    integer? ds = (readDigits 2147483647 .tooLarge 0 ds).map Int.ofNat := by
  have hsign : ∀ {d : Char} {r : List Char}, d :: r = ds → d.isDigit = true := fun hd =>
    hds _ (hd ▸ List.mem_cons_self)
  rw [integer?.eq_def]
  split
  · exact absurd rfl hne
  · exact absurd (hsign rfl) (by decide)
  · exact absurd (hsign rfl) (by decide)
  · exact absurd (hsign rfl) (by decide)
  · exact absurd (hsign rfl) (by decide)
  · rfl

theorem integer?_minus {ds : List Char} (hne : ds ≠ []) : integer? ('-' :: ds)
    = (readDigits 2147483648 .tooSmall 0 ds).map fun n => -(n : Int) := by
  cases ds with
  | nil => exact absurd rfl hne
  | cons d ds => rfl

theorem toList_signed (z : Int) : (Digits.signed z).toList
    = if z < 0 then '-' :: Nat.toDigits 10 z.natAbs else Nat.toDigits 10 z.natAbs := by
  rw [Digits.signed, Digits.text, String.toList_append]
  split
  · simp only [String.toList_ofList]
    rfl
  · simp only [String.toList_ofList]
    rfl

theorem isNumeric_signed (z : Int) : ∀ c ∈ (Digits.signed z).toList, isNumeric c = true := by
  have hdigits : ∀ c ∈ Nat.toDigits 10 z.natAbs, isNumeric c = true := fun c hc =>
    isNumeric_of_isDigit (List.all_eq_true.mp (WebScript.all_isDigit_toDigits _) c hc)
  intro c hc
  rw [toList_signed] at hc
  split at hc
  · rcases List.mem_cons.mp hc with rfl | hc
    · rfl
    · exact hdigits c hc
  · exact hdigits c hc

/-- Whole numbers are read back. -/
theorem integer?_signed {z : Int} (hlow : -2147483648 ≤ z) (hhigh : z ≤ 2147483647) :
    integer? (Digits.signed z).toList = .ok z := by
  have hne : Nat.toDigits 10 z.natAbs ≠ [] := Nat.toDigits_ne_nil
  rw [toList_signed]
  split
  · have hvalue : -(z.natAbs : Int) = z := by omega
    rw [integer?_minus hne, readDigits_toDigits _ (by omega)]
    exact congrArg Except.ok hvalue
  · have hvalue : (z.natAbs : Int) = z := by omega
    rw [integer?_of_digits hne (List.all_eq_true.mp (WebScript.all_isDigit_toDigits _)),
      readDigits_toDigits _ (by omega)]
    exact congrArg Except.ok hvalue

end Literal

end MapStyling
