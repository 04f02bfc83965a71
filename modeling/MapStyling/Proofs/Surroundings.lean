import MapStyling.Proofs.Dimensions
import MapStyling.Proofs.Measures
import MapStyling.Proofs.NumberReadings

/-!
# Blanks around Texts

Which blanks around the text of a parameter make no difference.

There are two ways around blanks. The readers of flags and of colors trim a text before the
rules see it, line breaks and all. The others leave it to the rules, which pass over spaces and
tabs. So a number behind a line break is none, though a flag there is one, and an extrusion can
be either: a word is read among all blanks, and heights only among spaces and tabs.

A text that rules have matched consists of tokens, and neither end of a token is a blank. What
is trimmed off such a text is what stands around its tokens, and there only spaces and tabs can
stand. So a text is read like its trimmed form or not at all.

## Main definitions

* `Text.plainEnds`: Texts with no other blanks than spaces and tabs at their ends.
* `StyleKey.trimmed`: A text without blanks at its ends.
* `StyleKey.passesOver`: Parameters and texts for which the blanks at the ends do not matter.

## Theorems

* `Grammar.spaced_iff_trim`: Texts of tokens, trimmed.
* `StyleKey.read?_eq_ok_iff_trimmed`: What is read from a text, by what is read from it trimmed.
* `StyleKey.read_trimmed`: The same for values.
-/

namespace MapStyling

open Grammar

namespace Text

/-- Whether the blanks at the ends of a text are spaces and tabs. -/
def plainEnds (s : List Char) : Bool :=
  (s.takeWhile isBlank).all isSpacing && (s.reverse.takeWhile isBlank).all isSpacing

theorem plainEnds_iff {x t y : List Char} (hx : ∀ c ∈ x, isBlank c = true) (ht : Trimmed t)
    (hy : ∀ c ∈ y, isBlank c = true) : plainEnds (x ++ (t ++ y)) = true
      ↔ (∀ c ∈ x, isSpacing c = true) ∧ ∀ c ∈ y, isSpacing c = true := by
  obtain ⟨hfirst, hlast⟩ := trimmed_iff.mp ht
  have hy' : ∀ c ∈ y.reverse, isBlank c = true := fun c hc => hy c (List.mem_reverse.mp hc)
  have hreverse : (x ++ (t ++ y)).reverse = y.reverse ++ (t.reverse ++ x.reverse) := by
    rw [List.reverse_append, List.reverse_append, List.append_assoc]
  by_cases hnil : t = []
  · -- Where everything is a blank, both ends are the whole text.
    subst hnil
    have hall : ∀ c ∈ x ++ y, isBlank c = true := fun c hc =>
      (List.mem_append.mp hc).elim (hx c) (hy c)
    have hall' : ∀ c ∈ (x ++ y).reverse, isBlank c = true := fun c hc =>
      hall c (List.mem_reverse.mp hc)
    rw [List.nil_append, plainEnds, List.takeWhile_eq_self_iff.mpr hall,
      List.takeWhile_eq_self_iff.mpr hall', List.all_reverse, Bool.and_self, List.all_eq_true]
    exact List.forall_mem_append
  · have hbegin : Stops isBlank (t ++ y) := hfirst.append_of_ne_nil hnil
    have hend : Stops isBlank (t.reverse ++ x.reverse) :=
      hlast.append_of_ne_nil fun h => hnil (List.reverse_eq_nil_iff.mp h)
    rw [plainEnds, hreverse, takeWhile_append_of_stops hx hbegin,
      takeWhile_append_of_stops hy' hend, List.all_reverse, Bool.and_eq_true, List.all_eq_true,
      List.all_eq_true]

end Text

namespace Grammar

variable {ts : List (List Char)} {s : List Char}

/-- Around tokens that do not begin or end with blanks there are spaces and tabs, and what they
    are around does not begin or end with a blank either. -/
theorem Spaced.exists_trimmed (h : Spaced ts s) (hts : ∀ w ∈ ts, Text.Trimmed w) (hne : ts ≠ []) :
    ∃ x m y, s = x ++ (m ++ y) ∧ Gap .spaced x ∧ Gap .spaced y ∧ m ≠ [] ∧ Text.Trimmed m ∧
      Spaced ts m := by
  induction h with
  | nil => exact absurd rfl hne
  | @cons x w s c ws hgap hfirst hrest ih =>
      have hw : Text.Trimmed (c :: w) := hts _ List.mem_cons_self
      -- The last token has the blanks at the end behind it, any other one a gap to the next.
      cases ws with
      | nil =>
          cases hrest with
          | nil hend =>
              exact ⟨x, c :: w, s, rfl, hgap, hend, List.cons_ne_nil _ _, hw, .token w hfirst⟩
      | cons v ws =>
          obtain ⟨x', m, y, rfl, hgap', hend, hm, htrimmed, hspaced⟩ :=
            ih (fun u hu => hts u (List.mem_cons_of_mem _ hu)) (List.cons_ne_nil _ _)
          refine ⟨x, c :: w ++ (x' ++ m), y, by simp only [List.append_assoc], hgap, hend,
            List.cons_ne_nil _ _, ?_, .cons (gap_nil _) hfirst (hspaced.gap_append hgap')⟩
          exact Text.trimmed_append (List.cons_ne_nil _ _) (Text.trimmed_iff.mp hw).1 x' hm
            (Text.trimmed_iff.mp htrimmed).2

/-- **Texts of tokens** are trimmed to texts of these tokens, and nothing but spaces and tabs is
    taken off them. -/
theorem spaced_iff_trim (hts : ∀ w ∈ ts, Text.Trimmed w) (hne : ts ≠ []) :
    Spaced ts s ↔ Text.plainEnds s = true ∧ Spaced ts (Text.trim s) := by
  have hblank : ∀ {x : List Char}, (∀ c ∈ x, isSpacing c = true) → ∀ c ∈ x, Text.isBlank c = true :=
    fun hx c hc => isBlank_of_isSpacing (hx c hc)
  constructor
  · intro h
    obtain ⟨x, m, y, rfl, hx, hy, _, hm, hspaced⟩ := h.exists_trimmed hts hne
    obtain ⟨hfirst, hlast⟩ := Text.trimmed_iff.mp hm
    rw [Text.plainEnds_iff (hblank hx.spacing) hm (hblank hy.spacing),
      Text.trim_of_stops (hblank hx.spacing) (hblank hy.spacing) hfirst hlast]
    exact ⟨⟨hx.spacing, hy.spacing⟩, hspaced⟩
  · rintro ⟨hplain, hspaced⟩
    obtain ⟨x, y, hs, hx, hy⟩ := Text.exists_strip Text.isBlank s
    change s = x ++ (Text.trim s ++ y) at hs
    rw [hs, Text.plainEnds_iff hx (Text.trimmed_trim s) hy] at hplain
    rw [hs]
    exact (hspaced.append_gap (gap_spaced hplain.2)).gap_append (gap_spaced hplain.1)

end Grammar

open Literal (literals literal?)

namespace Dimension

variable {ts : List (List Char)} {ds : List Dimension}

theorem trimmed_of_spells {d : Dimension} {w : List Char} (h : Spells d w) : Text.Trimmed w := by
  obtain ⟨n, hn, _, rfl⟩ := h
  refine Text.trimmed_of_forall fun c hc => ?_
  rcases List.mem_append.mp hc with hc | hc
  · exact Literal.not_isBlank_of_mem hn hc
  · have hunits : ∀ u : Option MeasureUnit, (unitText u).any Text.isBlank = false := by
      rintro (_ | _ | _ | _ | _ | _) <;> rfl
    exact Text.not_isBlank_of_any (hunits d.unit) c hc

theorem trimmed_of_forall₂ {texts : List (List Char)} (h : List.Forall₂ Spells ds texts) :
    ∀ w ∈ texts, Text.Trimmed w := by
  induction h with
  | nil => exact fun _ hw => absurd hw List.not_mem_nil
  | cons hd _ ih => exact List.forall_mem_cons.mpr ⟨trimmed_of_spells hd, ih⟩

/-- No token of a list begins or ends with a blank: numbers with units do not, and commas and
    brackets are no blanks. -/
theorem trimmed_of_many (h : Many ts ds) : ts ≠ [] ∧ ∀ w ∈ ts, Text.Trimmed w := by
  obtain ⟨texts, hne, htexts, rfl⟩ := many_iff.mp h
  have htrimmed := trimmed_of_forall₂ htexts
  cases texts with
  | nil => exact absurd rfl hne
  | cons w texts =>
      rw [intersperse_cons]
      refine ⟨List.cons_ne_nil _ _, List.forall_mem_cons.mpr ⟨htrimmed w List.mem_cons_self, ?_⟩⟩
      intro v hv
      obtain ⟨u, hu, hv⟩ := List.mem_flatMap.mp hv
      rcases List.mem_cons.mp hv with rfl | hv
      · rfl
      · rw [List.mem_singleton.mp hv]
        exact htrimmed u (List.mem_cons_of_mem _ hu)

theorem trimmed_of_list (h : Bracketed ts ds ∨ Many ts ds) :
    ts ≠ [] ∧ ∀ w ∈ ts, Text.Trimmed w := by
  rcases h with h | h
  · obtain ⟨us, hus, rfl⟩ := bracketed_iff.mp h
    exact ⟨List.cons_ne_nil _ _, List.forall_mem_cons.mpr ⟨rfl, List.forall_mem_append.mpr
      ⟨(trimmed_of_many hus).2, List.forall_mem_singleton.mpr rfl⟩⟩⟩
  · exact trimmed_of_many h

/-- A list among blanks is the trimmed one among spaces and tabs. -/
theorem readList_iff_trim {input : List Char} : readList input = .ok ds
    ↔ Text.plainEnds input = true ∧ readList (Text.trim input) = .ok ds := by
  rw [readList_iff_tokens, readList_iff_tokens]
  constructor
  · rintro ⟨ts, hts, hs⟩
    obtain ⟨hne, htrimmed⟩ := trimmed_of_list hts
    obtain ⟨hplain, hs⟩ := (spaced_iff_trim htrimmed hne).mp hs
    exact ⟨hplain, ts, hts, hs⟩
  · rintro ⟨hplain, ts, hts, hs⟩
    obtain ⟨hne, htrimmed⟩ := trimmed_of_list hts
    exact ⟨ts, hts, (spaced_iff_trim htrimmed hne).mpr ⟨hplain, hs⟩⟩

end Dimension

/-- A number among blanks is the trimmed one among spaces and tabs. -/
theorem readNumber_iff_trim {input : List Char} {v : Float} : readNumber input = .ok v
    ↔ Text.plainEnds input = true ∧ readNumber (Text.trim input) = .ok v := by
  have htoken : ∀ w ∈ literals, (Spaced [w] input
      ↔ Text.plainEnds input = true ∧ Spaced [w] (Text.trim input)) := fun w hw =>
    spaced_iff_trim (List.forall_mem_singleton.mpr
      (Text.trimmed_of_forall fun _ => Literal.not_isBlank_of_mem hw)) (List.cons_ne_nil _ _)
  rw [readNumber_eq_ok_iff, readNumber_eq_ok_iff]
  constructor
  · rintro ⟨w, hw, hs, hv⟩
    obtain ⟨hplain, hs⟩ := (htoken w hw).mp hs
    exact ⟨hplain, w, hw, hs, hv⟩
  · rintro ⟨hplain, w, hw, hs, hv⟩
    exact ⟨w, hw, (htoken w hw).mpr ⟨hplain, hs⟩, hv⟩

/-- What goes by the values that are read goes by those that are read under a condition. -/
theorem exists_and_iff {α : Type} {c : Prop} {p q r : α → Prop} (h : ∀ a, p a ↔ c ∧ q a) :
    (∃ a, p a ∧ r a) ↔ c ∧ ∃ a, q a ∧ r a := by
  simp only [h, and_assoc, exists_and_left]

theorem readWord_iff_trim {input : List Char} {n : UInt32} : readWord input = .ok n
    ↔ Text.plainEnds input = true ∧ readWord (Text.trim input) = .ok n := by
  rw [readWord, bind_eq_ok_iff, readWord, bind_eq_ok_iff]
  exact exists_and_iff fun _ => readNumber_iff_trim

namespace StyleKey

/-- A text without blanks at its ends. -/
def trimmed (s : String) : String := .ofList (Text.trim s.toList)

/-- Whether a parameter takes a text like its trimmed form: flags and colors do, an extrusion does
    if it is a word, and all with numbers do if only spaces and tabs are trimmed off. -/
def passesOver (key : StyleKey) (s : String) : Bool :=
  match key.kind with
  | .text => false
  | .flag | .color => true
  | .extrusion => Text.plainEnds s.toList || (trimmed s = "true" || trimmed s = "false")
  | _ => Text.plainEnds s.toList

theorem toList_trimmed (s : String) : (trimmed s).toList = Text.trim s.toList :=
  String.toList_ofList

theorem readFlag_trimmed (s : String) : readFlag (trimmed s).toList = readFlag s.toList := by
  rw [readFlag, readFlag, toList_trimmed, Text.trimmed_trim]

theorem readColor_trimmed (s : String) : Color.read (trimmed s) = Color.read s := by
  rw [Color.read, Color.read, toList_trimmed, Text.trimmed_trim]

theorem readFlag_iff_trimmed {s : String} {b : Bool} :
    readFlag s.toList = .ok b ↔ trimmed s = StyleValue.flagText b := by
  rw [readFlag_eq_ok_iff, ← toList_trimmed, String.toList_inj]

variable {key : StyleKey} {s : String} {v : StyleValue}

/-- What is spelled by dimensions is spelled by them trimmed, and a word of an extrusion is so
    among all blanks. -/
theorem spelled_iff_trimmed (hkey : key.kind.isMeasure = true) :
    Spelled key s v ↔ key.passesOver s = true ∧ Spelled key (trimmed s) v := by
  have hlist : ∀ ds, Dimension.readList s.toList = .ok ds
      ↔ Text.plainEnds s.toList = true ∧ Dimension.readList (trimmed s).toList = .ok ds := by
    intro ds
    rw [toList_trimmed, Dimension.readList_iff_trim]
  cases hk : key.kind with
  | extrusion =>
      rw [spelled_iff_of_eq hk, spelled_iff_of_eq hk, readFlag_trimmed, exists_and_iff hlist,
        passesOver, hk]
      -- A list is tried only where there is no word.
      rcases hflag : readFlag s.toList with e | b
      · have hword : ∀ b, trimmed s ≠ StyleValue.flagText b := fun b h => by
          rw [readFlag_iff_trimmed.mpr h] at hflag
          cases hflag
        have htrue : trimmed s ≠ "true" := hword true
        have hfalse : trimmed s ≠ "false" := hword false
        simp [htrue, hfalse]
      · have hword := readFlag_iff_trimmed.mp hflag
        have hpasses : (trimmed s = "true" || trimmed s = "false" : Bool) = true := by
          rw [hword]
          cases b <;> rfl
        simp [hpasses]
  | width | size | offset =>
      have hne : key.kind ≠ .extrusion := by rw [hk]; exact KeyKind.noConfusion
      rw [spelled_iff_of_ne hne, spelled_iff_of_ne hne, exists_and_iff hlist, passesOver, hk]
  | text | flag | color | word | number => rw [hk] at hkey; cases hkey

/-- **What is read from a text** is what is read from it trimmed, if the parameter passes over the
    blanks, and otherwise there is nothing. -/
theorem read?_eq_ok_iff_trimmed (hkey : key.kind ≠ .text) : key.read? s = .ok v
    ↔ key.passesOver s = true ∧ key.read? (trimmed s) = .ok v := by
  cases hk : key.kind with
  | text => exact absurd hk hkey
  | width | size | offset | extrusion =>
      have hmeasure : key.kind.isMeasure = true := by rw [hk]; rfl
      rw [read?_eq_ok_iff hmeasure, read?_eq_ok_iff hmeasure]
      exact spelled_iff_trimmed hmeasure
  | flag => simp only [read?, hk, passesOver, readFlag_trimmed, true_and]
  | color => simp only [read?, hk, passesOver, readColor_trimmed, true_and]
  | word =>
      simp only [read?, hk, passesOver, toList_trimmed, map_eq_ok_iff]
      exact exists_and_iff fun _ => readWord_iff_trim
  | number =>
      simp only [read?, hk, passesOver, toList_trimmed, map_eq_ok_iff]
      exact exists_and_iff fun _ => readNumber_iff_trim

/-- What is read from two texts from which the same values are read, or none. -/
theorem read_eq_of_iff {t : String} (h : ∀ v, key.read? s = .ok v ↔ key.read? t = .ok v) :
    key.read s = key.read t := by
  rw [read, read]
  rcases hs : key.read? s with e | v
  · rcases ht : key.read? t with e' | v
    · rfl
    · rw [(h v).mpr ht] at hs
      cases hs
  · rw [(h v).mp hs]

theorem read_eq_none (h : ∀ v, key.read? s ≠ .ok v) : key.read s = .none := by
  rw [read]
  rcases hs : key.read? s with e | v
  · rfl
  · exact absurd hs (h v)

/-- The value of a text is that of its trimmed form where the parameter passes over the blanks.
    Flags and colors always do, an extrusion does if it is a word, and all do if only spaces and
    tabs are trimmed off. Where they do not, there is no value. So trimming changes the value of a
    text exactly if the trimmed text has one and the blanks are not passed over. -/
theorem read_trimmed (hkey : key.kind ≠ .text) (s : String) :
    key.read s = (if key.passesOver s = true then key.read (trimmed s) else .none) ∧
    (key.read s = key.read (trimmed s)
      ↔ key.passesOver s = true ∨ key.read (trimmed s) = .none) := by
  have hiff : ∀ v, _ := fun v => read?_eq_ok_iff_trimmed (v := v) (s := s) hkey
  by_cases hpasses : key.passesOver s = true
  · have hread : key.read s = key.read (trimmed s) := read_eq_of_iff fun v => by
      rw [hiff, hpasses, eq_self_iff_true, true_and]
    rw [if_pos hpasses]
    exact ⟨hread, iff_of_true hread (Or.inl hpasses)⟩
  · have hread : key.read s = .none := read_eq_none fun v hv => hpasses ((hiff v).mp hv).1
    rw [if_neg hpasses]
    refine ⟨hread, ?_⟩
    rw [hread]
    exact ⟨fun h => Or.inr h.symm, fun h => (h.resolve_left hpasses).symm⟩

/-- A number behind a line break has no value, and among spaces and tabs it has the same as
    without them. -/
theorem read_trimmed_lineBreak :
    StyleKey.order.kind ≠ .text ∧ StyleKey.order.read "\n12" = .none ∧
    StyleKey.order.read (trimmed "\n12") = .word 12 ∧
    StyleKey.order.read " 12\t" = .word 12 := by
  have hkind : StyleKey.order.kind ≠ .text := by decide
  have hvalue : StyleKey.order.read "12" = .word 12 := rfl
  refine ⟨hkind, (read_trimmed hkind "\n12").1, hvalue, ?_⟩
  exact ((read_trimmed hkind " 12\t").2.mpr (Or.inl (by decide))).trans hvalue

-- A line break in front of an extrusion makes a difference to heights and not to words.
example : StyleKey.extrude.passesOver "\n10" = false := by decide

example : StyleKey.extrude.passesOver "\ntrue" = true := by decide

end StyleKey

end MapStyling
