import MapStyling.Grammar.Rules
import MapStyling.Number.Literal
import MapStyling.Proofs.Grammar.Reads

/-!
# Number Literals

The language of number literals, and that it is what the grammar reads.

A literal is a sign that may be missing, digits with at most one point around or among
them, and an exponent that may be missing. The rule for numbers takes as many characters
as it can, so a literal is read as a whole unless it is followed by something that looks
like more of it: a digit, a point or the letter of an exponent.

Whatever the grammar takes for a number has a value. The reader of doubles and the rule
were written apart, and a text that only one of the two accepts would be a number without
a value.

## Main definitions

* `Literal.literals`: The language of number literals.
* `Grammar.numberGoesOn`: Characters that could be more of a number.

## Theorems

* `Grammar.reads_oneOf`: A list of words reads its words.
* `Grammar.readsToken_number`: The rule for numbers reads literals.
* `Literal.isSome_literal?`: Every literal has a value.
-/

namespace MapStyling

namespace Literal

open Grammar (textsOf someOf)

/-- Texts of digits, at least one. -/
def digits : Language Char := someOf Char.isDigit

/-- A sign, or nothing. -/
def signs : Language Char := {['+'], ['-']} + 1

/-- Digits, with a point among or around them. -/
def mantissas : Language Char := digits * ({['.']} * textsOf Char.isDigit + 1) + {['.']} * digits

/-- The letter of an exponent and a whole number, or nothing. -/
def exponents : Language Char := {['e'], ['E']} * (signs * digits) + 1

/-- Number literals. -/
def literals : Language Char := signs * (mantissas * exponents)

end Literal

namespace Grammar

open Literal Rules

/-- A list of words fails where none of them stands in front. -/
theorem fails_oneOf {w : String} {ws : List String} {r : List Char}
    (h : ∀ v ∈ w :: ws, v.toList.isPrefixOf r = false) :
    (oneOf w ws).Fails .token r := by
  induction ws generalizing w with
  | nil => exact Pattern.fails_word (h w List.mem_cons_self)
  | cons v vs ih =>
      refine (Pattern.fails_word (h w List.mem_cons_self)).choice (ih fun u hu => ?_)
      exact h u (List.mem_cons_of_mem _ hu)

/-- Words in front of a text of which none spells one that is tried before it. -/
def Apart (words : List String) (r : List Char) : Prop :=
  words.Pairwise fun earlier later => earlier.toList.isPrefixOf (later.toList ++ r) = false

/-- The texts of words. -/
def wordsOf (words : List String) : Language Char := {v | v ∈ words.map String.toList}

theorem mem_wordsOf {words : List String} {v : List Char} :
    v ∈ wordsOf words ↔ v ∈ words.map String.toList := Iff.rfl

/-- A list of words reads its words. -/
theorem reads_oneOf (w : String) (ws : List String) :
    (oneOf w ws).ReadsToken (wordsOf (w :: ws)) (Apart (w :: ws)) := by
  induction ws generalizing w with
  | nil =>
      refine Pattern.Reads.congr (Pattern.readsToken_word w.toList) (fun v vs => ?_)
        fun _ _ => trivial
      exact and_congr_left fun _ => List.mem_singleton.symm
  | cons v vs ih =>
      have htail : (oneOf v vs).ReadsToken (wordsOf (v :: vs)) (Apart (w :: v :: vs)) :=
        (ih v).mono fun r hr => (List.pairwise_cons.mp hr).2
      have hboth := (Pattern.readsToken_word w.toList).choice htail fun u hu r hr => ?_
      · refine Pattern.Reads.congr hboth (fun u us => and_congr_left fun _ => ?_)
          fun r hr => ⟨trivial, hr⟩
        rw [Language.mem_add]
        exact List.mem_cons.symm
      · obtain ⟨later, hlater, rfl⟩ := List.mem_map.mp hu
        exact Pattern.fails_word ((List.pairwise_cons.mp hr).1 later hlater)

theorem mem_signs {w : List Char} : w ∈ signs ↔ (w = ['+'] ∨ w = ['-']) ∨ w = [] := Iff.rfl

/-- Characters that could be more of digits with a point. -/
def mantissaGoesOn (c : Char) : Bool := c.isDigit || c = '.'

/-- Characters that could be more of a number. -/
def numberGoesOn (c : Char) : Bool := mantissaGoesOn c || c = 'e' || c = 'E'

theorem isDigit_of_goesOn {c : Char} (h : mantissaGoesOn c = false) : c.isDigit = false :=
  (Bool.or_eq_false_iff.mp h).1

theorem mantissaGoesOn_of_goesOn {c : Char} (h : numberGoesOn c = false) :
    mantissaGoesOn c = false :=
  (Bool.or_eq_false_iff.mp (Bool.or_eq_false_iff.mp h).1).1

/-- An exponent is a letter and a whole number, unless it is missing. -/
theorem exists_of_mem_exponents {w : List Char} (h : w ∈ exponents) :
    (∃ c, (c = 'e' ∨ c = 'E') ∧ ∃ v ∈ signs * digits, w = c :: v) ∨ w = [] := by
  rcases h with h | rfl
  · obtain ⟨letter, rfl | rfl, v, hv, rfl⟩ := Language.mem_mul.mp h
    · exact Or.inl ⟨'e', Or.inl rfl, v, hv, rfl⟩
    · exact Or.inl ⟨'E', Or.inr rfl, v, hv, rfl⟩
  · exact Or.inr rfl

theorem stops_of_mem_exponents {w r : List Char} (h : w ∈ exponents) (hr : Stops mantissaGoesOn r) :
    Stops mantissaGoesOn (w ++ r) := by
  rcases exists_of_mem_exponents h with ⟨c, rfl | rfl, v, _, rfl⟩ | rfl
  · exact stops_cons.mpr rfl
  · exact stops_cons.mpr rfl
  · exact hr

theorem exists_cons_of_mem_digits {w : List Char} (hw : w ∈ digits) :
    ∃ c u, w = c :: u ∧ c.isDigit = true := by
  cases w with
  | nil => exact absurd rfl hw.1
  | cons c w => exact ⟨c, w, rfl, hw.2 c List.mem_cons_self⟩

theorem stops_of_mem_digits {w r : List Char} {q : Char → Bool} (hw : w ∈ digits)
    (hq : ∀ c, c.isDigit = true → q c = false) : Stops q (w ++ r) := by
  obtain ⟨c, u, rfl, hc⟩ := exists_cons_of_mem_digits hw
  exact stops_cons.mpr (hq c hc)

theorem exists_cons_of_mem_mantissas {w : List Char} (hw : w ∈ mantissas) :
    ∃ c u, w = c :: u ∧ mantissaGoesOn c = true := by
  rcases hw with hw | hw
  · obtain ⟨ds, hds, v, _, rfl⟩ := Language.mem_mul.mp hw
    obtain ⟨c, u, rfl, hc⟩ := exists_cons_of_mem_digits hds
    exact ⟨c, u ++ v, rfl, by rw [mantissaGoesOn, hc, Bool.true_or]⟩
  · obtain ⟨v, _, rfl⟩ := mem_singleton_mul.mp hw
    exact ⟨'.', v, rfl, rfl⟩

theorem stops_of_mem_mantissas {w r : List Char} {q : Char → Bool} (hw : w ∈ mantissas)
    (hq : ∀ c, mantissaGoesOn c = true → q c = false) : Stops q (w ++ r) := by
  obtain ⟨c, u, rfl, hc⟩ := exists_cons_of_mem_mantissas hw
  exact stops_cons.mpr (hq c hc)

/-- Characters that a literal can begin with. -/
def beginsLiteral (c : Char) : Bool := mantissaGoesOn c || c = '+' || c = '-'

theorem exists_cons_of_mem_literals {w : List Char} (hw : w ∈ literals) :
    ∃ c u, w = c :: u ∧ beginsLiteral c = true := by
  obtain ⟨s, hs, v, hv, rfl⟩ := Language.mem_mul.mp hw
  obtain ⟨m, hm, e, _, rfl⟩ := Language.mem_mul.mp hv
  rcases mem_signs.mp hs with (rfl | rfl) | rfl
  · exact ⟨'+', m ++ e, rfl, rfl⟩
  · exact ⟨'-', m ++ e, rfl, rfl⟩
  · obtain ⟨c, u, rfl, hc⟩ := exists_cons_of_mem_mantissas hm
    exact ⟨c, u ++ e, rfl, by rw [beginsLiteral, hc, Bool.true_or, Bool.true_or]⟩

/-- No literal begins with a blank. -/
theorem not_isSpacing_of_beginsLiteral {c : Char} (h : beginsLiteral c = true) :
    isSpacing c = false := by
  refine Bool.eq_false_iff.mpr fun hc => ?_
  rcases isSpacing_iff.mp hc with rfl | rfl
  · exact absurd h (by decide)
  · exact absurd h (by decide)

theorem not_numberGoesOn_of_isSpacing {c : Char} (h : isSpacing c = true) :
    numberGoesOn c = false := by
  rcases isSpacing_iff.mp h with rfl | rfl <;> rfl

theorem not_sign_of_goesOn {c : Char} (h : mantissaGoesOn c = true) :
    (c = '+' || c = '-') = false := by
  rw [Bool.or_eq_false_iff, decide_eq_false_iff_not, decide_eq_false_iff_not]
  constructor
  · rintro rfl
    exact absurd h (by decide)
  · rintro rfl
    exact absurd h (by decide)

/-- A sign or nothing, where nothing is not followed by a sign. -/
theorem readsToken_sign : sign.ReadsToken signs (Stops fun c => c = '+' || c = '-') := by
  refine Pattern.Reads.congr (reads_oneOf "+" ["-"]).optional (fun w vs => ?_)
    fun r hr => ⟨?_, ?_⟩
  · refine and_congr_left fun _ => ?_
    rw [mem_signs, Language.mem_add, Language.mem_one, mem_wordsOf]
    simp
  · exact List.pairwise_pair.mpr rfl
  · exact (Pattern.fails_word_of_stops hr rfl).choice (Pattern.fails_word_of_stops hr rfl)

/-- Digits with a point among or around them, up to the last digit. -/
theorem readsToken_mantissa :
    Pattern.ReadsToken (ρ := RuleName)
      (.choice (.sequence (.oneOrMore Char.isDigit)
          (.optional (.sequence (.word ['.']) (.zeroOrMore Char.isDigit))))
        (.sequence (.word ['.']) (.oneOrMore Char.isDigit))) mantissas (Stops mantissaGoesOn) := by
  have hfraction : Pattern.ReadsToken (ρ := RuleName)
      (.optional (.sequence (.word ['.']) (.zeroOrMore Char.isDigit)))
      ({['.']} * textsOf Char.isDigit + 1) (Stops mantissaGoesOn) :=
    ((Pattern.readsToken_word _).sequence (Pattern.readsToken_zeroOrMore _)
      fun _ _ _ _ => trivial).optional.mono fun r hr =>
        ⟨hr.mono fun c => isDigit_of_goesOn, (Pattern.fails_word_of_stops hr rfl).sequence⟩
  -- Digits end in front of a point and in front of what ends the literal.
  have hwhole := (Pattern.readsToken_oneOrMore (ρ := RuleName) Char.isDigit).sequence hfraction
    fun v hv r hr => ?_
  · have hpointed := (Pattern.readsToken_word (ρ := RuleName) ['.']).sequence
      (Pattern.readsToken_oneOrMore Char.isDigit) fun _ _ _ _ => trivial
    refine (hwhole.choice hpointed fun w hw r _ => ?_).mono fun r hr =>
      ⟨hr, hr.mono fun c => isDigit_of_goesOn⟩
    -- A text that begins with a point has no digits in front of it.
    obtain ⟨v, _, rfl⟩ := mem_singleton_mul.mp hw
    exact (Pattern.fails_oneOrMore (stops_cons.mpr rfl)).sequence
  · rcases hv with hv | rfl
    · obtain ⟨v, _, rfl⟩ := mem_singleton_mul.mp hv
      exact stops_cons.mpr rfl
    · exact hr.mono fun c => isDigit_of_goesOn

theorem toLower_eq_e {c : Char} (h : c.toLower = 'e') : c = 'e' ∨ c = 'E' := by
  unfold Char.toLower at h
  split at h
  · next hupper =>
    -- A capital is 32 below its small letter, and no sum wraps around in this range.
    have hval : (c.val + 32).toNat = 101 := congrArg (fun d => d.val.toNat) h
    have hupper' : c.val.toNat ≤ 90 := UInt32.le_iff_toNat_le.mp hupper.2
    have hsum : (c.val + 32).toNat = (c.val.toNat + 32) % 4294967296 := UInt32.toNat_add _ _
    have hcode : c.val.toNat = 69 := by omega
    exact Or.inr (Char.ext (UInt32.toNat_inj.mp hcode))
  · exact Or.inl h

theorem mem_spellingsOf_e {w : List Char} :
    w ∈ spellingsOf ['e'] ↔ w = ['e'] ∨ w = ['E'] := by
  rw [mem_spellingsOf]
  constructor
  · intro h
    obtain ⟨c, rfl, hc⟩ := List.map_eq_singleton_iff.mp h
    rcases toLower_eq_e hc with rfl | rfl
    · exact Or.inl rfl
    · exact Or.inr rfl
  · rintro (rfl | rfl) <;> rfl

/-- The letter of an exponent and a whole number, or nothing. -/
theorem readsToken_exponent :
    Pattern.ReadsToken (ρ := RuleName)
      (.optional (inOrder (.anyCase ['e']) [sign, .oneOrMore Char.isDigit])) exponents
      (Stops numberGoesOn) := by
  have hsigned := readsToken_sign.sequence (Pattern.readsToken_oneOrMore Char.isDigit)
    fun v hv r _ => stops_of_mem_digits hv fun c hc =>
      not_sign_of_goesOn (by rw [mantissaGoesOn, hc, Bool.true_or])
  have hexponent := (Pattern.readsToken_anyCase ['e']).sequence hsigned fun _ _ _ _ => trivial
  have hletters : spellingsOf ['e'] = ({['e'], ['E']} : Language Char) :=
    Language.ext fun w => mem_spellingsOf_e
  rw [hletters] at hexponent
  refine hexponent.optional.mono fun r hr => ⟨?_, ?_⟩
  · exact hr.mono fun c hc => isDigit_of_goesOn (mantissaGoesOn_of_goesOn hc)
  · -- An exponent begins with its letter, and none stands there.
    refine (Pattern.fails_anyCase fun w hw hfirst => ?_).sequence
    obtain ⟨s, rfl⟩ := hfirst
    rcases mem_spellingsOf_e.mp hw with rfl | rfl
    · exact absurd (stops_cons.mp hr) (by decide)
    · exact absurd (stops_cons.mp hr) (by decide)

/-- A literal is read up to the last character that could be of a number. -/
theorem readsToken_number :
    Pattern.ReadsToken (ρ := RuleName) (inOrder sign
      [.choice
        (.sequence (.oneOrMore Char.isDigit)
          (.optional (.sequence (.word ['.']) (.zeroOrMore Char.isDigit))))
        (.sequence (.word ['.']) (.oneOrMore Char.isDigit)),
      .optional (inOrder (.anyCase ['e']) [sign, .oneOrMore Char.isDigit])])
      literals (Stops numberGoesOn) := by
  have hunsigned := readsToken_mantissa.sequence readsToken_exponent fun v hv r hr =>
    stops_of_mem_exponents hv (hr.mono fun c => mantissaGoesOn_of_goesOn)
  refine readsToken_sign.sequence hunsigned fun v hv r _ => ?_
  obtain ⟨m, hm, e, _, rfl⟩ := Language.mem_mul.mp hv
  rw [List.append_assoc]
  exact stops_of_mem_mantissas hm fun c hc => not_sign_of_goesOn hc

end Grammar

namespace Literal

open Grammar

/-- A sign is taken off a text that begins with none. -/
theorem sign_append {s r : List Char} (hs : s ∈ signs)
    (hr : Stops (fun c => c = '+' || c = '-') r) : ∃ negative, sign (s ++ r) = (negative, r) := by
  rcases mem_signs.mp hs with (rfl | rfl) | rfl
  · exact ⟨false, rfl⟩
  · exact ⟨true, rfl⟩
  · refine ⟨false, ?_⟩
    rw [List.nil_append, sign.eq_def]
    split
    · exact absurd (stops_cons.mp hr) (by decide)
    · exact absurd (stops_cons.mp hr) (by decide)
    · rfl

/-- Every exponent, also a missing one, is a whole number. -/
theorem isSome_exponent? {w : List Char} (h : w ∈ exponents) : (exponent? w).isSome = true := by
  rcases exists_of_mem_exponents h with ⟨c, hc, v, hv, rfl⟩ | rfl
  · obtain ⟨s, hs, ds, hds, rfl⟩ := Language.mem_mul.mp hv
    have hstop : Stops (fun c => c = '+' || c = '-') ds := by
      have h := stops_of_mem_digits (r := []) (q := fun c => c = '+' || c = '-') hds fun c hc =>
        not_sign_of_goesOn (by rw [mantissaGoesOn, hc, Bool.true_or])
      rwa [List.append_nil] at h
    obtain ⟨negative, hsign⟩ := sign_append hs hstop
    have hdigits : (ds.isEmpty || !ds.all Char.isDigit) = false := by
      rw [List.all_eq_true.mpr hds.2, List.isEmpty_eq_false_iff.mpr hds.1]
      rfl
    rw [exponent?, if_pos hc, hsign]
    simp only [hdigits, Bool.false_eq_true, if_false]
    split <;> rfl
  · rfl

theorem unsigned?_whole {a e : List Char} (ha : a ∈ digits) (he : Stops mantissaGoesOn e) :
    unsigned? (a ++ e) = (exponent? e).map fun x => ⟨digitsValue a, x⟩ := by
  have hstop : Stops Char.isDigit e := he.mono fun c => isDigit_of_goesOn
  rw [unsigned?, takeWhile_append_of_stops ha.2 hstop, dropWhile_append_of_stops ha.2 hstop]
  split
  next fraction rest hparts =>
    split at hparts
    · exact absurd (stops_cons.mp he) (by decide)
    · cases hparts
      simp only [List.isEmpty_eq_false_iff.mpr ha.1, Bool.false_and, Bool.false_eq_true, if_false,
        List.append_nil, List.length_nil, Int.ofNat_zero, Int.sub_zero]

theorem unsigned?_pointed {a b e : List Char} (ha : ∀ c ∈ a, c.isDigit = true)
    (hb : ∀ c ∈ b, c.isDigit = true) (hne : a ≠ [] ∨ b ≠ []) (he : Stops Char.isDigit e) :
    unsigned? (a ++ '.' :: (b ++ e))
      = (exponent? e).map fun x => ⟨digitsValue (a ++ b), x - b.length⟩ := by
  have hstop : Stops Char.isDigit ('.' :: (b ++ e)) := stops_cons.mpr rfl
  have hsome : (a.isEmpty && b.isEmpty) = false := by
    rw [Bool.and_eq_false_iff, List.isEmpty_eq_false_iff, List.isEmpty_eq_false_iff]
    exact hne
  rw [unsigned?, takeWhile_append_of_stops ha hstop, dropWhile_append_of_stops ha hstop]
  simp only [takeWhile_append_of_stops hb he, dropWhile_append_of_stops hb he, hsome,
    Bool.false_eq_true, if_false]

/-- Every literal without its sign is a decimal. -/
theorem isSome_unsigned? {m e : List Char} (hm : m ∈ mantissas) (he : e ∈ exponents) :
    (unsigned? (m ++ e)).isSome = true := by
  have hstop : Stops mantissaGoesOn e := by
    have h := stops_of_mem_exponents he (stops_nil _)
    rwa [List.append_nil] at h
  have hdigit : Stops Char.isDigit e := hstop.mono fun c => isDigit_of_goesOn
  have hexponent := isSome_exponent? he
  -- Digits and a point, digits alone, or a point and digits.
  rcases hm with hm | hm
  · obtain ⟨a, ha, f, hf, rfl⟩ := Language.mem_mul.mp hm
    rcases hf with hf | rfl
    · obtain ⟨b, hb, rfl⟩ := mem_singleton_mul.mp hf
      rw [List.append_assoc, List.singleton_append, List.cons_append,
        unsigned?_pointed ha.2 hb (Or.inl ha.1) hdigit, Option.isSome_map]
      exact hexponent
    · rw [List.append_nil, unsigned?_whole ha hstop, Option.isSome_map]
      exact hexponent
  · obtain ⟨b, hb, rfl⟩ := mem_singleton_mul.mp hm
    have hpointed := unsigned?_pointed (a := []) (fun _ hc => absurd hc List.not_mem_nil) hb.2
      (Or.inr hb.1) hdigit
    rw [List.nil_append] at hpointed
    rw [List.singleton_append, List.cons_append, hpointed, Option.isSome_map]
    exact hexponent

/-- Every literal has a value. -/
theorem isSome_literal? {w : List Char} (h : w ∈ literals) : (literal? w).isSome = true := by
  obtain ⟨s, hs, v, hv, rfl⟩ := Language.mem_mul.mp h
  obtain ⟨m, hm, e, he, rfl⟩ := Language.mem_mul.mp hv
  obtain ⟨negative, hsign⟩ := sign_append hs
    (stops_of_mem_mantissas (r := e) hm fun c hc => not_sign_of_goesOn hc)
  rw [literal?, hsign, Option.isSome_map]
  exact isSome_unsigned? hm he

end Literal

end MapStyling
