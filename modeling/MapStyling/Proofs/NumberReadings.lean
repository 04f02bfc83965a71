import MapStyling.Proofs.Floats
import MapStyling.Proofs.Grammar.Numbers
import MapStyling.Proofs.Grammar.Tokens
import MapStyling.Proofs.NumberTexts
import MapStyling.Proofs.Rounding
import MapStyling.Proofs.Trimmed
import MapStyling.Scene

/-!
# Readings of Number Literals

What texts are read as numbers, and that all readers agree on it.

A number in a scene is read by one of three: as a scalar of the config, as a parameter with a
number, and as a parameter with a word of thirty-two bits. The first one trims the whole text
and hands it to the reader of numbers, which also knows words for what has no digits. The
others hand on the token that the rule for numbers has matched. All three ask the rule first,
so a text is a number to all of them or to none, and it is one if it is a literal with spaces
and tabs around it.

The reader has a value for every literal. It is not the number that is not a number, since a
literal is rounded and at worst becomes infinite. The words `inf` and `nan` are not literals,
so no text gets as far as to be read as one. A word is the whole part of the value if the value
is in the range of words, and what cuts the fraction off never meets a value outside.

## Main definitions

* `Grammar.numbers`: The texts of the numbers that a node is.

## Theorems

* `Double.toWord_cases`: Values and words.
* `Literal.datum_ne_nan`, `Literal.spelled?_of_mem`: A literal is a number, and no word is a
  literal.
* `Grammar.node_numberLiteral_iff`: What the rule for number literals matches.
* `readNumber_eq_ok_iff`, `numberOf?_of_literal`: The two ways to read a literal.
* `StyleKey.read_of_number`, `StyleKey.read_of_word`: What parameters make of a number.
* `Literal.readings`: Each text is a literal to all readers, with one value, or to none.
-/

namespace MapStyling

open Grammar

namespace Double

/-- A value in the range of words has its whole part as its word, and cutting off the fraction
    gives the same. A value outside has none. -/
theorem toWord_cases (x : Float) :
    (∃ q, (datum x).value? = some q ∧ 0 ≤ q ∧ q ≤ 4294967295 ∧ toWord? x = some (toWord x) ∧
      ((toWord x).toNat : ℤ) = ⌊q⌋) ∨
    ((∀ q, (datum x).value? = some q → q < 0 ∨ 4294967295 < q) ∧ toWord? x = none) := by
  rw [toWord?, toWord]
  cases datum x with
  | nan => exact Or.inr ⟨fun q h => absurd h.symm (Option.some_ne_none q), rfl⟩
  | infinite negative => exact Or.inr ⟨fun q h => absurd h.symm (Option.some_ne_none q), rfl⟩
  | finite negative m e =>
      simp only [Datum.value?]
      -- Zero of either sign is in range, and of the others those with a sign are not.
      by_cases hm : m = 0
      · subst hm
        refine Or.inl ⟨0, ?_, le_refl _, by norm_num, ?_, ?_⟩
        · rw [Datum.magnitude_zero, neg_zero, ite_self]
        · rw [Datum.ratio_zero, Nat.zero_div, Nat.zero_min]
          cases negative <;> rfl
        · rw [Datum.ratio_zero, Nat.zero_div, Nat.zero_min, Int.floor_zero]
          cases negative <;> rfl
      · have hpos := Datum.magnitude_pos hm e
        rw [if_neg hm]
        cases negative with
        | true =>
            refine Or.inr ⟨fun q hq => Or.inl ?_, rfl⟩
            rw [← Option.some.inj hq]
            exact neg_lt_zero.mpr hpos
        | false =>
            have hrange : (UInt32.size - 1) * (Datum.finite false m e).ratio.2
                < (Datum.finite false m e).ratio.1 ↔ 4294967295 < Datum.magnitude m e := by
              exact_mod_cast Datum.mul_lt_ratio_iff false m e 4294967295
            by_cases hlarge : 4294967295 < Datum.magnitude m e
            · refine Or.inr ⟨fun q hq => Or.inr (Option.some.inj hq ▸ hlarge), ?_⟩
              rw [decide_eq_true (hrange.mpr hlarge)]
              rfl
            · have hle : (Datum.finite false m e).ratio.1 / (Datum.finite false m e).ratio.2
                  ≤ UInt32.size - 1 :=
                Nat.div_le_of_le_mul (by rw [Nat.mul_comm]; exact not_lt.mp (mt hrange.mp hlarge))
              refine Or.inl ⟨Datum.magnitude m e, rfl, hpos.le, not_lt.mp hlarge, ?_, ?_⟩
              · rw [decide_eq_false (mt hrange.mp hlarge), Nat.min_eq_left hle]
                rfl
              · rw [Nat.min_eq_left hle, ← Datum.floor_magnitude false, if_neg Bool.false_ne_true,
                  UInt32.toNat_ofNat_of_lt' (lt_of_le_of_lt hle (by decide))]

end Double

namespace Decimal

theorem nearest_le (b : BinaryLayout) (d : Decimal) : d.nearest b ≤ b.infinity := by
  rw [nearest]
  split
  · exact Nat.zero_le _
  · split
    · exact Nat.le_refl _
    · split
      · exact Nat.zero_le _
      · exact b.nearest_le _ _

/-- A decimal is read as a number. -/
theorem datum_nearestDouble_ne_nan (negative : Bool) (d : Decimal) :
    Double.datum (d.nearestDouble negative) ≠ .nan := by
  have hle := d.nearest_le .double
  have hdatum : BinaryLayout.double.datum
      (BinaryLayout.double.signed negative (d.nearest .double)) ≠ .nan := by
    rw [BinaryLayout.double.datum_signed negative hle]
    split <;> exact Datum.noConfusion
  have hlt : BinaryLayout.double.signed negative (d.nearest .double) < 2 ^ 64 := by
    have hmax : BinaryLayout.double.signBit + BinaryLayout.double.infinity < 2 ^ 64 := by decide
    rw [BinaryLayout.signed]
    split <;> omega
  rw [Double.datum, nearestDouble, Double.toBits_ofBits hlt hdatum]
  exact hdatum

end Decimal

namespace Literal

/-- The value of a literal is a number. -/
theorem datum_ne_nan {w : List Char} {v : Float} (h : literal? w = some v) :
    Double.datum v ≠ .nan := by
  obtain ⟨d, _, rfl⟩ := Option.map_eq_some_iff.mp h
  exact d.datum_nearestDouble_ne_nan _

/-- Digits and points have no case. -/
theorem toLower_of_goesOn {c : Char} (h : mantissaGoesOn c = true) : c.toLower = c := by
  unfold Char.toLower
  split
  · next hupper =>
    have hcode : c.val.toNat ≤ 57 := by
      rcases Bool.or_eq_true_iff.mp h with hdigit | hpoint
      · rw [Char.isDigit, Bool.and_eq_true, decide_eq_true_eq, decide_eq_true_eq] at hdigit
        exact UInt32.le_iff_toNat_le.mp hdigit.2
      · rw [of_decide_eq_true hpoint]
        decide
    have hletter : 65 ≤ c.val.toNat := UInt32.le_iff_toNat_le.mp hupper.1
    omega
  · rfl

/-- No word for what has no digits is a literal. -/
theorem spelled?_of_mem {w : List Char} (h : w ∈ literals) : spelled? w = literal? w := by
  obtain ⟨s, hs, v, hv, rfl⟩ := Language.mem_mul.mp h
  obtain ⟨m, hm, e, he, rfl⟩ := Language.mem_mul.mp hv
  obtain ⟨negative, hsign⟩ := sign_append hs
    (stops_of_mem_mantissas (r := e) hm fun c hc => not_sign_of_goesOn hc)
  obtain ⟨c, u, rfl, hc⟩ := exists_cons_of_mem_mantissas hm
  -- The words begin with letters, and what is left of a literal behind its sign does not.
  have hletter : ∀ {d : Char} {word : List Char}, mantissaGoesOn d = false →
      String.ofList ((c :: u ++ e).map Char.toLower) ≠ String.ofList (d :: word) := by
    intro d word hd heq
    have hfirst : c.toLower = d := (List.cons.inj (String.ofList_injective heq)).1
    rw [toLower_of_goesOn hc] at hfirst
    rw [hfirst, hd] at hc
    exact Bool.false_ne_true hc
  rw [spelled?, hsign]
  simp only
  rw [if_neg (not_or_intro (hletter rfl) (hletter rfl)), if_neg (hletter rfl)]

theorem not_isBlank_of_mem {w : List Char} (hw : w ∈ literals) {c : Char} (hc : c ∈ w) :
    Text.isBlank c = false := by
  obtain ⟨v, hv⟩ := Option.isSome_iff_exists.mp (isSome_literal? hw)
  exact not_isBlank_of_isNumeric (isNumeric_of_spelled ((spelled?_of_mem hw).trans hv) hc)

end Literal

namespace Grammar

open Literal (literals literal?)

/-- The texts of the numbers that a node is. -/
def numbers (n : Node RuleName) : List (List Char) := if n.name = .number then [n.text] else []

/-- A literal as a token, with its text. -/
def Numeral : List (List Char) → List (List Char) → Prop :=
  Valued fun v w => w ∈ literals ∧ v = w

theorem begins_numeral : Begins isSpacing Numeral := by
  refine begins_valued fun v w hw => ?_
  obtain ⟨c, u, rfl, hc⟩ := exists_cons_of_mem_literals hw.1
  exact ⟨c, u, rfl, not_isSpacing_of_beginsLiteral hc⟩

theorem reads_numeral :
    Rules.number.Reads .spaced numbers (Laid Numeral) (Stops numberGoesOn) := by
  have hrule : Rules.number.Reads .spaced numbers _ (Stops numberGoesOn) :=
    readsToken_number.rule (g := fun w => [w]) (by decide) fun _ _ _ => rfl
  have hvalue : ∀ (w : List Char) (vs : List (List Char)),
      w ∈ literals ∧ vs = [w] ↔ ∃ v, (w ∈ literals ∧ v = w) ∧ vs = [v] := by
    intro w vs
    constructor
    · rintro ⟨hw, rfl⟩
      exact ⟨w, ⟨hw, rfl⟩, rfl⟩
    · rintro ⟨v, ⟨hw, rfl⟩, rfl⟩
      exact ⟨hw, rfl⟩
  refine (hrule.congr hvalue fun _ hr => hr).laid (fun w vs hw => ?_) fun x r hx hr =>
    hx.stops (fun c => not_numberGoesOn_of_isSpacing) hr
  obtain ⟨v, hv, _⟩ := hw
  obtain ⟨c, u, hcons, hc⟩ := exists_cons_of_mem_literals hv.1
  exact ⟨c, u, hcons, not_isSpacing_of_beginsLiteral hc⟩

/-- The number that is looked for in a node is the first of its texts. -/
theorem find?_number (nodes : List (Node RuleName)) :
    (nodes.find? fun n => n.name = .number).map Node.number
      = (nodes.flatMap numbers).head?.map fun w => (literal? w).getD Double.nan := by
  induction nodes with
  | nil => rfl
  | cons n rest ih =>
      rw [List.find?_cons, List.flatMap_cons, numbers]
      by_cases hn : n.name = .number
      · simp only [hn, decide_true, if_true]
        rfl
      · simp only [hn, decide_false, if_false, List.nil_append]
        exact ih

/-- The rule for number literals matches the literals with spaces and tabs around them. -/
theorem node_numberLiteral_iff (expected : String) {input w : List Char} :
    (∃ node, RuleName.numberLiteral.node expected input = .ok node ∧
      node.children.flatMap numbers = [w]) ↔ w ∈ literals ∧ Spaced [w] input := by
  constructor
  · rintro ⟨node, hnode, hw⟩
    obtain ⟨_, _, ⟨t, rfl, v, ⟨ht, rfl⟩, rfl⟩, hs, heq⟩ := Pattern.Reads.node_sound .numberLiteral
      reads_numeral begins_numeral (stops_nil _) (fun _ _ _ => rfl) rfl hnode
    rw [hw, List.append_nil] at heq
    rw [List.singleton_inj.mp heq]
    exact ⟨ht, hs⟩
  · rintro ⟨hw, hs⟩
    exact reads_numeral.node_complete .numberLiteral begins_numeral (stops_nil _)
      (fun _ _ _ => rfl) rfl ⟨w, rfl, w, ⟨hw, rfl⟩, rfl⟩ hs

/-- A text in which no literal stands among spaces and tabs is not matched. -/
theorem exists_error_of_not_literal {input : List Char} (h : ∀ w ∈ literals, ¬Spaced [w] input) :
    ∃ offset, RuleName.numberLiteral.pattern.parse input = .error offset := by
  cases hparse : RuleName.numberLiteral.pattern.parse input with
  | error offset => exact ⟨offset, rfl⟩
  | ok nodes =>
      obtain ⟨children, last, _, rfl⟩ := Pattern.parse_whole_iff.mp hparse
      have hnode := (@Pattern.node_eq_ok_iff .numberLiteral _ rfl "number" _ _).mpr hparse
      obtain ⟨_, _, ⟨w, rfl, v, ⟨hw, _⟩, _⟩, hs, _⟩ := reads_numeral.node_sound .numberLiteral
        begins_numeral (stops_nil _) (fun _ _ _ => rfl) rfl hnode
      exact absurd hs (h w hw)

end Grammar

open Grammar (Spaced)
open Literal (literals literal?)

/-- The value of the literal that a text is. -/
theorem readNumber_of_literal {input w : List Char} {v : Float} (hw : w ∈ literals)
    (hs : Spaced [w] input) (hv : literal? w = some v) : readNumber input = .ok v := by
  obtain ⟨node, hnode, htexts⟩ := (Grammar.node_numberLiteral_iff "number").mpr ⟨hw, hs⟩
  rw [readNumber, hnode]
  change Except.ok _ = _
  rw [Grammar.find?_number, htexts]
  simp only [List.head?_cons, Option.map_some, hv, Option.getD_some]

theorem readNumber_of_not_literal {input : List Char} (h : ∀ w ∈ literals, ¬Spaced [w] input) :
    ∃ e, readNumber input = .error e := by
  obtain ⟨offset, hparse⟩ := Grammar.exists_error_of_not_literal h
  exact ⟨_, by rw [readNumber, RuleName.node, hparse]; rfl⟩

/-- A number that is read is the value of a literal. -/
theorem readNumber_eq_ok_iff {input : List Char} {v : Float} : readNumber input = .ok v
    ↔ ∃ w ∈ literals, Spaced [w] input ∧ literal? w = some v := by
  constructor
  · intro h
    by_cases hliteral : ∃ w ∈ literals, Spaced [w] input
    · obtain ⟨w, hw, hs⟩ := hliteral
      obtain ⟨v', hv'⟩ := Option.isSome_iff_exists.mp (Literal.isSome_literal? hw)
      have heq : v' = v := Except.ok.inj ((readNumber_of_literal hw hs hv').symm.trans h)
      exact ⟨w, hw, hs, heq ▸ hv'⟩
    · obtain ⟨e, he⟩ := readNumber_of_not_literal fun w hw hs => hliteral ⟨w, hw, hs⟩
      rw [he] at h
      cases h
  · rintro ⟨w, hw, hs, hv⟩
    exact readNumber_of_literal hw hs hv

/-- A scalar is matched as a whole and trimmed, which leaves the literal. -/
theorem numberOf?_of_literal {s : String} {w : List Char} {v : Float} (hw : w ∈ literals)
    (hs : Spaced [w] s.toList) (hv : literal? w = some v) : SceneNode.numberOf? s = some v := by
  obtain ⟨node, hnode, _⟩ := (Grammar.node_numberLiteral_iff "number").mpr ⟨hw, hs⟩
  have hspelled : Literal.spelled? w = some v := (Literal.spelled?_of_mem hw).trans hv
  have htrim : Text.trim s.toList = w :=
    Grammar.trim_of_spaced hs fun _ => Literal.not_isBlank_of_mem hw
  have hparse : RuleName.numberLiteral.pattern.parse s.toList = .ok [node] :=
    (Grammar.Pattern.node_eq_ok_iff rfl).mp hnode
  unfold SceneNode.numberOf?
  rw [hparse, htrim]
  exact hspelled

theorem numberOf?_of_not_literal {s : String} (h : ∀ w ∈ literals, ¬Spaced [w] s.toList) :
    SceneNode.numberOf? s = none := by
  obtain ⟨offset, hparse⟩ := Grammar.exists_error_of_not_literal h
  unfold SceneNode.numberOf?
  rw [hparse]

namespace StyleKey

variable {k : StyleKey} {s : String}

/-- A parameter with a number is the single nearest to what is read. -/
theorem read_of_number (hk : k.kind = .number) {v : Float} (h : readNumber s.toList = .ok v) :
    k.read s = .number (Double.toSingle v) := by
  rw [read, read?, hk]
  simp only [h]
  rfl

/-- A parameter with a word is the word under what is read, if there is one. -/
theorem read_of_word (hk : k.kind = .word) {v : Float} (h : readNumber s.toList = .ok v) :
    k.read s = ((Double.toWord? v).map StyleValue.word).getD .none := by
  rw [read, read?, hk]
  simp only [readWord, h, bind, Except.bind]
  cases Double.toWord? v <;> rfl

/-- Neither of them has a value where no number is read. -/
theorem read_of_error (hk : k.kind = .number ∨ k.kind = .word) {e : ReadError}
    (h : readNumber s.toList = .error e) : k.read s = .none := by
  rcases hk with hk | hk
  · rw [read, read?, hk]
    simp only [h]
    rfl
  · rw [read, read?, hk]
    simp only [readWord, h]
    rfl

end StyleKey

namespace Literal

/-- Each text is a literal among spaces and tabs, or it is not. If it is, it is the one that
    trimming leaves, the reader of numbers has a value for it that is a number, and all
    readings are this value: the scalar is, a parameter with a number is its single, and a
    parameter with a word is its whole part as long as the value is in the range of words, with
    nothing cut off by the conversion. If it is not, none of them has a value. -/
theorem readings (s : String) :
    (∃ w ∈ literals, Spaced [w] s.toList ∧ w = Text.trim s.toList ∧
      ∃ v, spelled? w = some v ∧ v.isNaN = false ∧
        (SceneNode.scalar s).number? = some v ∧
        (∀ k : StyleKey, k.kind = .number → k.read s = .number (Double.toSingle v)) ∧
        ∀ k : StyleKey, k.kind = .word →
          (∃ q, (Double.datum v).value? = some q ∧ 0 ≤ q ∧ q ≤ 4294967295 ∧
            k.read s = .word (Double.toWord v) ∧ ((Double.toWord v).toNat : ℤ) = ⌊q⌋) ∨
          ((∀ q, (Double.datum v).value? = some q → q < 0 ∨ 4294967295 < q) ∧
            k.read s = .none)) ∨
    ((∀ w ∈ literals, ¬Spaced [w] s.toList) ∧ (SceneNode.scalar s).number? = none ∧
      ∀ k : StyleKey, k.kind = .number ∨ k.kind = .word → k.read s = .none) := by
  rw [SceneNode.number?_scalar]
  by_cases h : ∃ w ∈ literals, Spaced [w] s.toList
  · obtain ⟨w, hw, hs⟩ := h
    obtain ⟨v, hv⟩ := Option.isSome_iff_exists.mp (isSome_literal? hw)
    have hspelled : spelled? w = some v := (spelled?_of_mem hw).trans hv
    have hread := readNumber_of_literal hw hs hv
    -- Trimming takes off no part of a literal, as a literal holds no blanks.
    have htrim : Text.trim s.toList = w := Grammar.trim_of_spaced hs fun c hc =>
      not_isBlank_of_isNumeric (isNumeric_of_spelled hspelled hc)
    have hnan : v.isNaN = false := by
      rw [← Bool.not_eq_true, Double.isNaN_iff]
      exact datum_ne_nan hv
    refine Or.inl ⟨w, hw, hs, htrim.symm, v, hspelled, hnan, numberOf?_of_literal hw hs hv,
      fun k hk => StyleKey.read_of_number hk hread, fun k hk => ?_⟩
    rw [StyleKey.read_of_word hk hread]
    rcases Double.toWord_cases v with ⟨q, hq, hlow, hhigh, hsome, hfloor⟩ | ⟨hout, hnone⟩
    · exact Or.inl ⟨q, hq, hlow, hhigh, by rw [hsome]; rfl, hfloor⟩
    · exact Or.inr ⟨hout, by rw [hnone]; rfl⟩
  · have hnot : ∀ w ∈ literals, ¬Spaced [w] s.toList := fun w hw hs => h ⟨w, hw, hs⟩
    obtain ⟨e, he⟩ := readNumber_of_not_literal hnot
    exact Or.inr ⟨hnot, numberOf?_of_not_literal hnot, fun k hk => StyleKey.read_of_error hk he⟩

end Literal

end MapStyling
