import MapStyling.Text.Blank
import Mathlib.Data.List.Basic

/-!
# Separated Texts

What comes of taking a joined text apart.

A text that is joined with a separator comes apart into its parts if the separator does
not stand inside of one of them. For a single character this is a matter of the parts
alone. The line that ends the headers of a case is more than a character: it is a line of
three hyphens together with the line breaks around it, and it is found at the first line
that reads so, never half inside of another one, because a line holds no line break.

## Theorems

* `Text.splitAt?_singleton_eq_some_iff`: The first place of a character.
* `Text.beforeLast?_eq_some_iff`: What comes before a text that comes last.
* `Text.splitOn_intercalate`: The parts of joined parts.
* `Text.splitAt?_intercalate`: The lines before a line, and the text behind it.
-/

namespace MapStyling

namespace Text

variable {c : Char} {a b p s r : List Char}

theorem afterFirst?_eq_some_iff : afterFirst? p s = some r ↔ s = p ++ r := by
  induction p generalizing s with
  | nil => rw [afterFirst?, Option.some_inj, List.nil_append]
  | cons d p ih =>
      cases s with
      | nil => simp only [afterFirst?, reduceCtorEq, List.cons_append]
      | cons e s =>
          rw [afterFirst?, List.cons_append, List.cons.injEq]
          by_cases he : d = e
          · rw [if_pos he, ih]
            exact ⟨fun h => ⟨he.symm, h⟩, fun h => h.2⟩
          · rw [if_neg he]
            exact ⟨fun h => (by cases h), fun h => absurd h.1.symm he⟩

theorem beforeLast?_eq_some_iff : beforeLast? p s = some r ↔ s = r ++ p := by
  rw [beforeLast?, Option.map_eq_some_iff]
  constructor
  · rintro ⟨u, hu, rfl⟩
    have hs := congrArg List.reverse (afterFirst?_eq_some_iff.mp hu)
    rwa [List.reverse_reverse, List.reverse_append, List.reverse_reverse] at hs
  · rintro rfl
    exact ⟨r.reverse, afterFirst?_eq_some_iff.mpr List.reverse_append, List.reverse_reverse r⟩

/-- A separator does not stand where its first character does not. -/
theorem splitAt?_append_of_not_mem (h : c ∉ a) : splitAt? (c :: p) (a ++ b)
    = (splitAt? (c :: p) b).map fun (before, rest) => (a ++ before, rest) := by
  induction a with
  | nil => exact Option.map_id'.symm
  | cons d a ih =>
      obtain ⟨hd, ha⟩ := List.ne_and_not_mem_of_not_mem_cons h
      rw [List.cons_append, splitAt?, afterFirst?, if_neg hd, ih ha, Option.map_map]
      rfl

theorem splitAt?_singleton (h : c ∉ a) : splitAt? [c] (a ++ c :: b) = some (a, b) := by
  have hfirst : splitAt? [c] (c :: b) = some ([], b) := by
    rw [splitAt?, afterFirst?, if_pos rfl, afterFirst?]
  rw [splitAt?_append_of_not_mem h, hfirst]
  simp only [Option.map_some, List.append_nil]

theorem splitAt?_singleton_eq_none (h : c ∉ a) : splitAt? [c] a = none := by
  have hsplit := splitAt?_append_of_not_mem (p := []) (b := []) h
  rwa [List.append_nil] at hsplit

/-- A text comes apart at a character in one way. -/
theorem splitAt?_singleton_eq_some_iff :
    splitAt? [c] s = some (a, b) ↔ s = a ++ c :: b ∧ c ∉ a := by
  constructor
  · intro h
    by_cases hc : c ∈ s
    · obtain ⟨u, v, rfl, hu⟩ := List.eq_append_cons_of_mem hc
      rw [splitAt?_singleton hu] at h
      cases h
      exact ⟨rfl, hu⟩
    · rw [splitAt?_singleton_eq_none hc] at h
      cases h
  · rintro ⟨rfl, ha⟩
    exact splitAt?_singleton ha

theorem splitOn_of_not_mem (h : c ∉ a) : splitOn c a = [a] := by
  induction a with
  | nil => rfl
  | cons d a ih =>
      obtain ⟨hd, ha⟩ := List.ne_and_not_mem_of_not_mem_cons h
      rw [splitOn, if_neg (Ne.symm hd), ih ha]

theorem splitOn_append (h : c ∉ a) : splitOn c (a ++ c :: b) = a :: splitOn c b := by
  induction a with
  | nil => rw [List.nil_append, splitOn, if_pos rfl]
  | cons d a ih =>
      obtain ⟨hd, ha⟩ := List.ne_and_not_mem_of_not_mem_cons h
      rw [List.cons_append, splitOn, if_neg (Ne.symm hd), ih ha]

theorem intercalate_cons {parts : List (List Char)} (h : parts ≠ []) :
    [c].intercalate (a :: parts) = a ++ c :: [c].intercalate parts := by
  cases parts with
  | nil => exact absurd rfl h
  | cons part parts => rfl

/-- Joined lines come apart into the lines. -/
theorem splitOn_intercalate {parts : List (List Char)} (hne : parts ≠ [])
    (h : ∀ part ∈ parts, c ∉ part) : splitOn c ([c].intercalate parts) = parts := by
  induction parts with
  | nil => exact absurd rfl hne
  | cons part parts ih =>
      have hpart : c ∉ part := h part List.mem_cons_self
      by_cases hlast : parts = []
      · rw [hlast, List.intercalate_singleton, splitOn_of_not_mem hpart]
      · rw [intercalate_cons hlast, splitOn_append hpart,
          ih hlast fun l hl => h l (List.mem_cons_of_mem _ hl)]

/-- A line, with the line breaks around it, is where a text goes on with it. -/
theorem splitAt?_line (mark rest : List Char) :
    splitAt? ('\n' :: (mark ++ ['\n'])) ('\n' :: (mark ++ '\n' :: rest)) = some ([], rest) := by
  have hfirst : afterFirst? ('\n' :: (mark ++ ['\n'])) ('\n' :: (mark ++ '\n' :: rest))
      = some rest := afterFirst?_eq_some_iff.mpr (by
        rw [List.cons_append, List.append_assoc, List.singleton_append])
  rw [splitAt?, hfirst]

/-- Another line is passed over. -/
theorem splitAt?_line_of_ne {mark line rest : List Char} (hmark : '\n' ∉ mark)
    (hline : '\n' ∉ line) (hne : line ≠ mark) :
    splitAt? ('\n' :: (mark ++ ['\n'])) ('\n' :: (line ++ '\n' :: rest))
      = (splitAt? ('\n' :: (mark ++ ['\n'])) (line ++ '\n' :: rest)).map
          fun (before, rest) => ('\n' :: before, rest) := by
  have hfirst : afterFirst? ('\n' :: (mark ++ ['\n'])) ('\n' :: (line ++ '\n' :: rest)) = none := by
    refine Option.eq_none_iff_forall_ne_some.mpr fun r hr => hne ?_
    -- Both texts come apart at their first line break.
    have htext : line ++ '\n' :: rest = mark ++ ['\n'] ++ r :=
      (List.cons.inj (afterFirst?_eq_some_iff.mp hr)).2
    rw [List.append_assoc, List.singleton_append] at htext
    have hsplit := splitAt?_singleton (b := rest) hline
    rw [htext, splitAt?_singleton hmark] at hsplit
    cases hsplit
    rfl
  rw [splitAt?, hfirst]

/-- A line among others is found at the first place where it stands, and what is behind it
    is taken as it is. -/
theorem splitAt?_intercalate {lines : List (List Char)} {mark rest : List Char}
    (hne : lines ≠ []) (hmark : '\n' ∉ mark) (h : ∀ line ∈ lines, '\n' ∉ line ∧ line ≠ mark) :
    splitAt? ('\n' :: (mark ++ ['\n'])) (['\n'].intercalate (lines ++ [mark, rest]))
      = some (['\n'].intercalate lines, rest) := by
  induction lines with
  | nil => exact absurd rfl hne
  | cons line lines ih =>
      have hline := h line List.mem_cons_self
      rw [List.cons_append, intercalate_cons (by simp), splitAt?_append_of_not_mem hline.1]
      cases lines with
      | nil =>
          -- Behind the last line there is the mark.
          have hmarked : ['\n'].intercalate [mark, rest] = mark ++ '\n' :: rest := by
            rw [intercalate_cons (List.cons_ne_nil _ _), List.intercalate_singleton]
          rw [List.nil_append, hmarked, splitAt?_line, List.intercalate_singleton]
          simp only [Option.map_some, List.append_nil]
      | cons next lines =>
          -- Behind any other line there is a line that is not the mark.
          have hnext := h next (List.mem_cons_of_mem _ List.mem_cons_self)
          have hrest := ih (List.cons_ne_nil _ _) fun l hl => h l (List.mem_cons_of_mem _ hl)
          have hlines : ['\n'].intercalate (next :: lines ++ [mark, rest])
              = next ++ '\n' :: ['\n'].intercalate (lines ++ [mark, rest]) := by
            rw [List.cons_append, intercalate_cons (by simp)]
          rw [hlines, splitAt?_line_of_ne hmark hnext.1 hnext.2, ← hlines, hrest,
            intercalate_cons (List.cons_ne_nil _ _)]
          rfl

end Text

end MapStyling
