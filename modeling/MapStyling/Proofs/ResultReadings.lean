import MapStyling.Interpreters
import MapStyling.Proofs.Dimensions
import MapStyling.Proofs.Measures
import MapStyling.Proofs.PlainLiterals
import MapStyling.Session.Decoding

/-!
# Results and Their Texts

What a script hands back comes to the same value as its text.

The results of scripts are taken apart by a table of their own. For texts it has two ways
around the readers of parameters, one for parameters whose texts are taken as they are and one
for colors. The first way is taken for some of these parameters only, and the others get to
the same result through the reader of their kind. For numbers it says on its own which unit a
bare number has and which part of a value it is. A parameter with a reading for numbers has the
same one for the texts of numbers, as long as the readers let the number through: widths and
sizes have to be finite and not below zero, and words in their range.

## Main definitions

* `Decoding.numberKeys`: Parameters that numbers and texts of numbers are read for.

## Theorems

* `Decoding.text_results_read`: A text is what the reader of the parameter makes of it.
* `Dimension.readList_of_literal`: A literal is a list of one dimension.
* `StyleKey.read_of_bare`: What a literal without a unit is read as.
* `Decoding.number_results_read`: A number is what its text is.
-/

namespace MapStyling

open Grammar (Spaced)
open Literal (literals literal?)

/-- In the range of words the conversion that may fail and the one that cuts off agree. -/
theorem Double.toWord?_of_le {n : Float} {q : ℚ} (h : (datum n).value? = some q) (hq : 0 ≤ q)
    (hle : q ≤ 4294967295) : toWord? n = some (toWord n) := by
  rcases toWord_cases n with ⟨_, _, _, _, hsome, _⟩ | ⟨hout, _⟩
  · exact hsome
  · rcases hout q h with hbelow | habove
    · exact absurd hq (not_le.mpr hbelow)
    · exact absurd hle (not_le.mpr habove)

namespace Decoding

theorem decodeText_eq_read (key : StyleKey) (s : String) : decodeText key s = key.read s := by
  unfold decodeText
  by_cases hverbatim : verbatimKeys.contains key = true
  · rw [if_pos hverbatim, StyleKey.read, StyleKey.read?, kind_of_verbatim hverbatim]
  · rw [if_neg hverbatim]
    by_cases hcolor : colorKeys.contains key = true
    · rw [if_pos hcolor, StyleKey.read, StyleKey.read?, kind_of_color hcolor]
      cases Color.read s <;> rfl
    · rw [if_neg hcolor]

variable {σ : Type} [Engine σ]

/-- A result that is a text. -/
theorem run_decode_text (key : StyleKey) {h : Handle} {e : σ} (hkind : Engine.kind e h = .string) :
    ((decode key h).run e).1 = decodeText key ((Engine.text h).run e).1 := by
  rw [run_decode, hkind]
  simp only [run_bind_state]
  rfl

/-- A result that is a number. -/
theorem run_decode_number (key : StyleKey) {h : Handle} {e : σ}
    (hkind : Engine.kind e h = .number) :
    ((decode key h).run e).1 = decodeNumber key ((Engine.number h).run e).1 := by
  rw [run_decode, hkind]
  rfl

/-- **Results that are texts** are read for a parameter as the text is: the ways around its
    reader lead nowhere else, on any engine. -/
theorem text_results_read (key : StyleKey) : (∀ s, decodeText key s = key.read s) ∧
    ∀ {σ : Type} [Engine σ] (h : Handle) (e : σ), Engine.kind e h = .string →
      ((decode key h).run e).1 = key.read ((Engine.text h).run e).1 := by
  refine ⟨decodeText_eq_read key, fun h e hkind => ?_⟩
  rw [run_decode_text key hkind, decodeText_eq_read]

/-- A text that looks like a flag, handed over for a parameter that takes any text. -/
theorem text_results_read_word :
    let e : EmbeddedEngine EmbeddedScript.language :=
      { EmbeddedEngine.new with stack := ⟨#[.text " true"]⟩ }
    Engine.kind e ⟨0⟩ = .string ∧ ((decode .cap ⟨0⟩).run e).1 = StyleKey.cap.read " true" :=
  ⟨rfl, (text_results_read .cap).2 _ _ rfl⟩

end Decoding

theorem Literal.spaced {w : List Char} (hw : w ∈ literals) : Spaced [w] w := by
  obtain ⟨c, u, rfl, hc⟩ := Grammar.exists_cons_of_mem_literals hw
  exact .token u (Grammar.not_isSpacing_of_beginsLiteral hc)

/-- A literal is a list of one dimension without a unit. -/
theorem Dimension.readList_of_literal {w : List Char} {v : Float} (hw : w ∈ literals)
    (hv : literal? w = some v) : readList w = .ok [⟨v, none⟩] := by
  have hspells : Spells ⟨v, none⟩ w := ⟨w, hw, hv, (List.append_nil w).symm⟩
  have hmany : Many [w] [⟨v, none⟩] :=
    many_iff.mpr ⟨[w], List.cons_ne_nil w [], .cons hspells .nil, rfl⟩
  exact readList_iff_tokens.mpr ⟨[w], Or.inr hmany, Literal.spaced hw⟩

/-- No literal is a flag, since it does not begin with a letter. -/
theorem Literal.trim_ne_flagText {w : List Char} (hw : w ∈ literals) (b : Bool) :
    Text.trim w ≠ (StyleValue.flagText b).toList := by
  have htrim : Text.trim w = w := Text.trimmed_of_forall fun _ => not_isBlank_of_mem hw
  obtain ⟨c, u, rfl, hc⟩ := Grammar.exists_cons_of_mem_literals hw
  have hletter : ∀ {d : Char} {word : List Char}, Grammar.beginsLiteral d = false →
      c :: u ≠ d :: word := by
    intro d word hd heq
    rw [(List.cons.inj heq).1, hd] at hc
    cases hc
  rw [htrim]
  cases b with
  | true => exact hletter (d := 't') rfl
  | false => exact hletter (d := 'f') rfl

namespace StyleKey

variable {key : StyleKey} {s : String} {n : Float}

/-- A parameter with dimensions has the value that is made of a number without a unit. -/
theorem read_of_bare (hw : s.toList ∈ literals) (hn : literal? s.toList = some n)
    {v : StyleValue} (hkey : key.kind.isMeasure = true)
    (hmeasures : Dimension.Measures (key = .buffer) key.kind [⟨n, none⟩] v) : key.read s = v := by
  have hread : key.read? s = .ok v := (read?_eq_ok_iff hkey).mpr <|
    .list (fun _ => ⟨Literal.trim_ne_flagText hw true, Literal.trim_ne_flagText hw false⟩)
      (Dimension.readList_of_literal hw hn) hmeasures
  rw [read, hread]

end StyleKey

namespace Decoding

/-- Parameters that numbers and texts of numbers are read for. -/
def numberKeys : List StyleKey :=
  [.textSource, .textSourceLeft, .textSourceRight, .extrude, .placementSpacing, .width,
   .outlineWidth, .angle, .textFontStrokeWidth, .placementMinLengthRatio, .size, .order,
   .outlineOrder, .priority]

/-- The words for what has no digits are not written for a finite number. -/
theorem numberFormat_double {n : Float} {q : ℚ} (h : (Double.datum n).value? = some q) :
    numberFormat.double n = NumberFormat.plain.double n := by
  obtain ⟨negative, m, e, hn⟩ := Datum.exists_finite h
  have hpattern : BinaryLayout.double.datum n.toBits.toNat = .finite negative m e := hn
  rw [NumberFormat.double, NumberFormat.double, NumberFormat.text, NumberFormat.text, hpattern]
  rfl

theorem text_of_number {n : Float} {q : ℚ} (h : (Double.datum n).value? = some q) :
    (numberFormat.double n).toList ∈ literals ∧
      literal? (numberFormat.double n).toList = some n := by
  obtain ⟨negative, m, e, hn⟩ := Datum.exists_finite h
  rw [numberFormat_double h]
  exact NumberFormat.literal?_double hn

theorem decodeNumber_eq_read {key : StyleKey} (hkey : key ∈ numberKeys) {n : Float} {q : ℚ}
    (h : (Double.datum n).value? = some q) (hq : 0 ≤ q)
    (hsingle : ∃ r, (Single.datum (Double.toSingle n)).value? = some r)
    (hword : key.kind = .word → q ≤ 4294967295) :
    decodeNumber key n = key.read (numberFormat.double n) := by
  obtain ⟨hw, hn⟩ := text_of_number h
  have hnumber := readNumber_of_literal hw (Literal.spaced hw) hn
  have hextent : Single.IsExtent (Dimension.single ⟨n, none⟩) :=
    Single.isExtent_toSingle h hq hsingle
  have hread : key.kind = .word → key.read (numberFormat.double n) = .word (Double.toWord n) := by
    intro hkind
    rw [StyleKey.read_of_word hkind hnumber, Double.toWord?_of_le h hq (hword hkind)]
    rfl
  -- The decoder names its parameters, so what it says of each is compared with its kind.
  cases key with
  | textSource | textSourceLeft | textSourceRight => rfl
  | extrude => exact (StyleKey.read_of_bare hw hn rfl .height).symm
  | placementSpacing | width | outlineWidth =>
      exact (StyleKey.read_of_bare hw hn rfl (.width hextent)).symm
  | size => exact (StyleKey.read_of_bare hw hn rfl (.oneSize hextent)).symm
  | angle | textFontStrokeWidth | placementMinLengthRatio =>
      exact (StyleKey.read_of_number rfl hnumber).symm
  | order | outlineOrder | priority => exact (hread rfl).symm
  | _ => exact absurd hkey (by decide)

/-- **Results that are numbers** come to the same value as their texts, on any two engines, for
    every parameter that numbers are read for. The number may be any finite one that is not below
    zero and has a finite single, and where a word is asked for it has to be in the range of
    words. -/
theorem number_results_read {key : StyleKey} (hkey : key ∈ numberKeys) {n : Float} {q : ℚ}
    (h : (Double.datum n).value? = some q) (hq : 0 ≤ q)
    (hsingle : ∃ r, (Single.datum (Double.toSingle n)).value? = some r)
    (hword : key.kind = .word → q ≤ 4294967295) :
    decodeNumber key n = decodeText key (numberFormat.double n) ∧
    ∀ {σ τ : Type} [Engine σ] [Engine τ] (number text : Handle) (e : σ) (e' : τ),
      Engine.kind e number = .number → ((Engine.number number).run e).1 = n →
      Engine.kind e' text = .string → ((Engine.text text).run e').1 = numberFormat.double n →
      ((decode key number).run e).1 = ((decode key text).run e').1 := by
  have heq : decodeNumber key n = decodeText key (numberFormat.double n) := by
    rw [decodeText_eq_read, decodeNumber_eq_read hkey h hq hsingle hword]
  refine ⟨heq, fun number text e e' hkind hvalue hkind' htext => ?_⟩
  rw [run_decode_number key hkind, run_decode_text key hkind', hvalue, htext, heq]

/-- Two and a half meters, as a number and as a text. -/
theorem number_results_read_meters :
    let n : Float := .ofBits 0x4004000000000000
    let e : EmbeddedEngine EmbeddedScript.language :=
      { EmbeddedEngine.new with stack := ⟨#[.number n, .text "2.5"]⟩ }
    (Double.datum n).value? = some (5 / 2) ∧ decodeNumber .width n = decodeText .width "2.5" ∧
      ((decode .width ⟨0⟩).run e).1 = ((decode .width ⟨1⟩).run e).1 := by
  intro n e
  have hdatum : Double.datum n = .finite false 5629499534213120 (-51) := by decide
  have hsingle : Single.datum (Double.toSingle n) = .finite false 10485760 (-22) := by
    decide
  have hvalue : (Double.datum n).value? = some (5 / 2) := by
    rw [hdatum, Datum.value?, if_neg Bool.false_ne_true, Datum.magnitude]
    norm_num
  have htext : numberFormat.double n = "2.5" := by decide
  have hkey : StyleKey.width ∈ numberKeys := by decide
  have hboth := number_results_read hkey hvalue (by norm_num) ⟨_, by rw [hsingle]; rfl⟩
    fun h => by cases h
  refine ⟨hvalue, htext ▸ hboth.1, hboth.2 ⟨0⟩ ⟨1⟩ e e rfl rfl rfl htext.symm⟩

end Decoding

end MapStyling
