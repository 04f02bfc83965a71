import MapStyling.Proofs.Grammar.Tokens

/-!
# Trimmed Texts

Texts without blanks at their ends.

Trimming twice is trimming once, and a trimmed text is what is left of it among blanks. So
a reader that trims cannot tell how many blanks a writer has put around a text, and a text
that is trimmed comes back as it was.

## Main definitions

* `Text.strip`: A text without the characters of a class at its ends.
* `Text.Trimmed`: Texts that trimming leaves as they are.

## Theorems

* `Text.strip_of_stops`, `Text.exists_strip`: What is left of a text, and what is taken off.
* `Text.trimmed_iff`: Their first and last characters are no blanks.
* `Text.trimmed_trim`: Trimming trims.
* `Text.trim_blanks_append`, `Text.trim_append_blanks`: A trimmed text behind blanks and in
  front of them.
* `Text.trimmed_append`: Only the ends of a text matter.
* `Grammar.trim_of_spaced`, `Grammar.eq_of_spaced`: A token with spaces and tabs around it, and
  a trimmed text of one token.
-/

namespace MapStyling

theorem Grammar.isBlank_of_isSpacing {c : Char} (h : Grammar.isSpacing c = true) :
    Text.isBlank c = true := by
  rcases Grammar.isSpacing_iff.mp h with rfl | rfl <;> rfl

namespace Text

open Grammar (Stops stops_cons stops_dropWhile stops_nil dropWhile_append_of_stops)

/-- A text without the characters of a class at its ends. -/
def strip (p : Char → Bool) (s : List Char) : List Char := dropEndWhile p (s.dropWhile p)

theorem stops_strip (p : Char → Bool) (s : List Char) :
    Stops p (strip p s) ∧ Stops p (strip p s).reverse := by
  rw [strip, dropEndWhile, List.reverse_reverse]
  refine ⟨fun c hc => ?_, stops_dropWhile _ _⟩
  -- What is left begins as the text does behind the first characters of the class.
  have hsplit : (s.dropWhile p).head? = some c := by
    have hboth := congrArg List.reverse
      (List.takeWhile_append_dropWhile (p := p) (l := (s.dropWhile p).reverse))
    rw [List.reverse_append, List.reverse_reverse] at hboth
    rw [← hboth, List.head?_append, Option.mem_def.mp hc]
    rfl
  exact stops_dropWhile p s c hsplit

/-- A text among characters of a class, if it does not begin or end with one. -/
theorem strip_of_stops {p : Char → Bool} {x s y : List Char} (hx : ∀ c ∈ x, p c = true)
    (hy : ∀ c ∈ y, p c = true) (hs : Stops p s) (hs' : Stops p s.reverse) :
    strip p (x ++ (s ++ y)) = s := by
  have hy' : ∀ c ∈ y.reverse, p c = true := fun c hc => hy c (List.mem_reverse.mp hc)
  have hend : dropEndWhile p (s ++ y) = s := by
    rw [dropEndWhile, List.reverse_append, dropWhile_append_of_stops hy' hs', List.reverse_reverse]
  -- If nothing is between them, all of it is taken off from the front.
  by_cases hnil : s = []
  · subst hnil
    have hall : ∀ c ∈ x ++ ([] ++ y), p c = true := fun c hc =>
      (List.mem_append.mp hc).elim (hx c) (hy c)
    have hdrop := dropWhile_append_of_stops hall (stops_nil _)
    rw [List.append_nil] at hdrop
    rw [strip, hdrop]
    rfl
  · have hstop : Stops p (s ++ y) := by
      cases s with
      | nil => exact absurd rfl hnil
      | cons c s => exact hs
    rw [strip, dropWhile_append_of_stops hx hstop, hend]

/-- What is taken off a text is of the class. -/
theorem exists_strip (p : Char → Bool) (s : List Char) : ∃ x y, s = x ++ (strip p s ++ y) ∧
    (∀ c ∈ x, p c = true) ∧ ∀ c ∈ y, p c = true := by
  refine ⟨s.takeWhile p, ((s.dropWhile p).reverse.takeWhile p).reverse, ?_,
    List.all_eq_true.mp List.all_takeWhile, fun c hc => ?_⟩
  · rw [strip, dropEndWhile, ← List.reverse_append, List.takeWhile_append_dropWhile,
      List.reverse_reverse, List.takeWhile_append_dropWhile]
  · exact List.all_eq_true.mp List.all_takeWhile c (List.mem_reverse.mp hc)

/-- Texts without blanks at their ends. -/
def Trimmed (s : List Char) : Prop := trim s = s

theorem stops_trim (s : List Char) : Stops isBlank (trim s) ∧ Stops isBlank (trim s).reverse :=
  stops_strip isBlank s

/-- A text among blanks, if it does not begin or end with one. -/
theorem trim_of_stops {x s y : List Char} (hx : ∀ c ∈ x, isBlank c = true)
    (hy : ∀ c ∈ y, isBlank c = true) (hs : Stops isBlank s) (hs' : Stops isBlank s.reverse) :
    trim (x ++ (s ++ y)) = s :=
  strip_of_stops hx hy hs hs'

theorem trimmed_iff {s : List Char} :
    Trimmed s ↔ Stops isBlank s ∧ Stops isBlank s.reverse := by
  constructor
  · intro h
    have htrim : trim s = s := h
    have hstops := stops_trim s
    rwa [htrim] at hstops
  · rintro ⟨hfirst, hlast⟩
    have htrim := trim_of_stops (x := []) (y := []) (fun _ hc => absurd hc List.not_mem_nil)
      (fun _ hc => absurd hc List.not_mem_nil) hfirst hlast
    rwa [List.nil_append, List.append_nil] at htrim

theorem trimmed_trim (s : List Char) : Trimmed (trim s) := trimmed_iff.mpr (stops_trim s)

theorem trim_blanks_append {x s : List Char} (hx : ∀ c ∈ x, isBlank c = true) (h : Trimmed s) :
    trim (x ++ s) = s := by
  have htrim := trim_of_stops (y := []) hx (fun _ hc => absurd hc List.not_mem_nil)
    (trimmed_iff.mp h).1 (trimmed_iff.mp h).2
  rwa [List.append_nil] at htrim

theorem trim_append_blanks {s y : List Char} (h : Trimmed s) (hy : ∀ c ∈ y, isBlank c = true) :
    trim (s ++ y) = s :=
  trim_of_stops (x := []) (fun _ hc => absurd hc List.not_mem_nil) hy (trimmed_iff.mp h).1
    (trimmed_iff.mp h).2

theorem not_isBlank_of_any {s : List Char} (h : s.any isBlank = false) :
    ∀ c ∈ s, isBlank c = false := fun c hc =>
  Bool.eq_false_iff.mpr (List.any_eq_false.mp h c hc)

theorem trimmed_of_forall {s : List Char} (h : ∀ c ∈ s, isBlank c = false) : Trimmed s :=
  trimmed_iff.mpr ⟨fun c hc => h c (List.mem_of_head? hc),
    fun c hc => h c (List.mem_reverse.mp (List.mem_of_head? hc))⟩

/-- Only the ends of a text matter. -/
theorem trimmed_append {a b : List Char} (hne : a ≠ []) (ha : Stops isBlank a) (m : List Char)
    (hne' : b ≠ []) (hb : Stops isBlank b.reverse) : Trimmed (a ++ (m ++ b)) := by
  refine trimmed_iff.mpr ⟨ha.append_of_ne_nil hne, ?_⟩
  rw [← List.append_assoc, List.reverse_append]
  exact hb.append_of_ne_nil fun h => hne' (List.reverse_eq_nil_iff.mp h)

/-- Blanks in front of a text do not count, and what it begins with stays. -/
theorem trim_cons {x s : List Char} {c : Char} (hx : ∀ c ∈ x, isBlank c = true)
    (hc : isBlank c = false) : ∃ r, trim (x ++ c :: s) = c :: r := by
  have hdrop : (x ++ c :: s).dropWhile isBlank = c :: s :=
    dropWhile_append_of_stops hx (stops_cons.mpr hc)
  rw [trim, hdrop, dropEndWhile, List.reverse_cons, List.dropWhile_append]
  split
  · rw [List.dropWhile_cons_of_neg (by rw [hc]; exact Bool.false_ne_true)]
    exact ⟨[], rfl⟩
  · rw [List.reverse_append]
    exact ⟨_, rfl⟩

end Text

namespace Grammar

/-- A token with spaces and tabs around it is a text among blanks. -/
theorem Spaced.exists_blanks {s w : List Char} (h : Spaced [w] s) :
    ∃ x y, s = x ++ (w ++ y) ∧ (∀ c ∈ x, Text.isBlank c = true) ∧
      ∀ c ∈ y, Text.isBlank c = true := by
  cases h with
  | @cons x w y c _ hx _ hy =>
      cases hy with
      | nil hy =>
          exact ⟨x, y, rfl, fun d hd => isBlank_of_isSpacing (hx.spacing d hd),
            fun d hd => isBlank_of_isSpacing (hy.spacing d hd)⟩

/-- A text of one token, trimmed. -/
theorem trim_of_spaced {s w : List Char} (h : Spaced [w] s) (hw : ∀ c ∈ w, Text.isBlank c = false) :
    Text.trim s = w := by
  obtain ⟨x, y, rfl, hx, hy⟩ := h.exists_blanks
  have htrimmed := Text.trimmed_iff.mp (Text.trimmed_of_forall hw)
  exact Text.trim_of_stops hx hy htrimmed.1 htrimmed.2

/-- A trimmed text of one token is the token. -/
theorem eq_of_spaced {t w : List Char} (ht : Text.Trimmed t) (h : Spaced [w] t) : t = w := by
  obtain ⟨hfirst, hlast⟩ := Text.trimmed_iff.mp ht
  obtain ⟨x, y, rfl, hx, hy⟩ := h.exists_blanks
  have hx' : x = [] := eq_nil_of_stops hx hfirst
  rw [hx', List.nil_append, List.reverse_append] at hlast
  have hy' : y.reverse = [] :=
    eq_nil_of_stops (fun c hc => hy c (List.mem_reverse.mp hc)) hlast
  rw [hx', List.reverse_eq_nil_iff.mp hy', List.nil_append, List.append_nil]

end Grammar

end MapStyling
