import MapStyling.Proofs.Readers
import MapStyling.Text.Markup

/-!
# Escaped Texts

What escaping does to a text, and how it is undone.

The characters are replaced one after the other in the whole text, so a later round goes over
what the earlier ones have put in. It finds nothing there: of the characters that are replaced
only the ampersand stands in an image, and its round is the first. So all rounds together put
the image of every character in its place, whatever stands next to it.

Of the characters that are replaced an escaped text holds only ampersands, and each of them
begins an entity. A reader that takes the entities for what they stand for gets back the text
that was escaped, also one that looked like entities before.

## Main definitions

* `Markup.image`: What stands for a character in escaped texts.
* `Markup.character?`: The first character of a text, or the one that an entity stands for.
* `Markup.unescape?`: A text with the characters that its entities stand for.

## Theorems

* `Markup.foldl_replace`: Rounds of which none finds what an earlier one has put in.
* `Markup.toList_escape`: Escaping goes by characters.
* `Markup.exists_entity`: Every ampersand begins an entity.
* `Markup.unescape?_flatMap_image`: Escaping is undone.
* `Markup.texts_escaped`: These together.
-/

namespace MapStyling

namespace Markup

variable {table : List (Char × List Char)} {c d : Char} {s before rest : List Char}

/-- What a table has for a character, and the character itself if there is nothing. -/
def imageIn (table : List (Char × List Char)) (c : Char) : List Char := (table.lookup c).getD [c]

/-- What stands for a character in escaped texts. -/
def image (c : Char) : List Char := imageIn entities c

theorem imageIn_cons (e : Char × List Char) (table : List (Char × List Char)) (c : Char) :
    imageIn (e :: table) c = if c = e.1 then e.2 else imageIn table c := by
  rw [imageIn, imageIn, List.lookup_cons]
  by_cases hc : c = e.1
  · rw [if_pos hc, beq_iff_eq.mpr hc]
    rfl
  · rw [if_neg hc, beq_eq_false_iff_ne.mpr hc]

theorem imageIn_of_forall_ne (h : ∀ e ∈ table, c ≠ e.1) : imageIn table c = [c] := by
  have hnone : table.lookup c = none :=
    List.lookup_eq_none_iff.mpr fun e he => bne_iff_ne.mpr (h e he)
  rw [imageIn, hnone]
  rfl

theorem flatMap_imageIn_of_not_mem (h : ∀ e ∈ table, e.1 ∉ s) : s.flatMap (imageIn table) = s := by
  refine (List.flatMap_congr fun c hc => ?_).trans (List.flatMap_singleton' s)
  exact imageIn_of_forall_ne fun e he heq => h e he (heq ▸ hc)

/-- Rounds of which none replaces what an earlier one has put in replace all characters at once. -/
theorem foldl_replace (h : table.Pairwise fun earlier later => later.1 ∉ earlier.2) :
    table.foldl (fun t e => replace e.1 e.2 t) s = s.flatMap (imageIn table) := by
  induction table generalizing s with
  | nil => exact (List.flatMap_singleton' s).symm
  | cons e table ih =>
      obtain ⟨hlater, htable⟩ := List.pairwise_cons.mp h
      rw [List.foldl_cons, ih htable, replace, List.flatMap_assoc]
      refine List.flatMap_congr fun d _ => ?_
      rw [imageIn_cons]
      by_cases hd : d = e.1
      · rw [if_pos hd, if_pos hd]
        exact flatMap_imageIn_of_not_mem hlater
      · rw [if_neg hd, if_neg hd, List.flatMap_singleton]

/-- Escaping goes by characters: the ampersand is replaced before any entity is there. -/
theorem toList_escape (s : String) : (escape s).toList = s.toList.flatMap image := by
  rw [escape, String.toList_ofList]
  exact foldl_replace (by decide)

/-- A character has an entity, or it stands for itself and does not begin one. -/
theorem image_cases (c : Char) :
    (∃ e ∈ entities, c = e.1 ∧ image c = e.2) ∨ ((∀ e ∈ entities, c ≠ e.1) ∧ image c = [c]) := by
  have hown : ∀ e ∈ entities, image e.1 = e.2 := by decide
  by_cases h : ∃ e ∈ entities, c = e.1
  · obtain ⟨e, he, rfl⟩ := h
    exact Or.inl ⟨e, he, rfl, hown e he⟩
  · have hnot : ∀ e ∈ entities, c ≠ e.1 := fun e he hc => h ⟨e, he, hc⟩
    exact Or.inr ⟨hnot, imageIn_of_forall_ne hnot⟩

theorem image_ne_nil (c : Char) : image c ≠ [] := by
  have hentities : ∀ e ∈ entities, e.2 ≠ [] := by decide
  rcases image_cases c with ⟨e, he, _, himage⟩ | ⟨_, himage⟩
  · exact himage ▸ hentities e he
  · exact himage ▸ List.cons_ne_nil c []

/-- Of the characters that are replaced only the ampersand is left. -/
theorem not_mem_flatMap_image (hd : d ∈ ['<', '>', '"']) : d ∉ s.flatMap image := by
  have hentities : ∀ e ∈ entities, e.2.any (fun c => ['<', '>', '"'].contains c) = false := by
    decide
  intro hmem
  obtain ⟨c, _, hmem⟩ := List.mem_flatMap.mp hmem
  rcases image_cases c with ⟨e, he, _, himage⟩ | ⟨hnot, himage⟩
  · exact List.any_eq_false.mp (hentities e he) d (himage ▸ hmem) (List.contains_iff_mem.mpr hd)
  · -- The three are the entries behind the first one.
    obtain ⟨e, he, rfl⟩ : ∃ e ∈ entities, e.1 = d := List.mem_map.mp (List.mem_cons_of_mem '&' hd)
    rw [himage, List.mem_singleton] at hmem
    exact hnot e he hmem.symm

/-- An ampersand in an image is its first character. -/
theorem eq_nil_of_image_eq (h : image c = before ++ '&' :: rest) :
    before = [] ∧ ∃ e ∈ entities, image c = e.2 := by
  have hentities : ∀ e ∈ entities, e.2.head? = some '&' ∧ '&' ∉ e.2.tail := by decide
  rcases image_cases c with ⟨e, he, _, himage⟩ | ⟨hnot, himage⟩
  · refine ⟨?_, e, he, himage⟩
    cases before with
    | nil => rfl
    | cons d before =>
        refine absurd ?_ (hentities e he).2
        rw [← himage, h]
        exact List.mem_append_right before List.mem_cons_self
  · -- Any other character is alone in its image, and the ampersand has an entity.
    rw [himage] at h
    have hc : '&' ∈ [c] := h ▸ List.mem_append_right before List.mem_cons_self
    exact absurd (List.mem_singleton.mp hc).symm (hnot ('&', "&amp;".toList) List.mem_cons_self)

/-- Every ampersand begins an entity. -/
theorem exists_entity (h : s.flatMap image = before ++ '&' :: rest) :
    ∃ e ∈ entities, e.2 <+: '&' :: rest := by
  induction s generalizing before with
  | nil => cases before <;> cases h
  | cons c s ih =>
      rw [List.flatMap_cons, List.append_eq_append_iff] at h
      -- The ampersand is in the images of later characters, or in the one of this character.
      rcases h with ⟨front, _, hs⟩ | ⟨back, himage, hback⟩
      · exact ih hs
      · cases back with
        | nil =>
            have hrest : s.flatMap image = [] ++ '&' :: rest := hback.symm
            exact ih hrest
        | cons d back =>
            obtain ⟨rfl, hrest⟩ := List.cons.inj hback
            obtain ⟨rfl, e, he, heq⟩ := eq_nil_of_image_eq himage
            refine ⟨e, he, s.flatMap image, ?_⟩
            rw [← heq, himage, hrest]
            rfl

/-- The entity that a text begins with: what it stands for, and what is behind it. -/
def entity? (s : List Char) : Option (Char × List Char) :=
  entities.findSome? fun e => (Text.afterFirst? e.2 s).map fun rest => (e.1, rest)

/-- The first character of a text, or the one that an entity stands for, and what is behind it. -/
def character? : List Char → Option (Char × List Char)
  | [] => none
  | c :: s => some ((entity? (c :: s)).getD (c, s))

/-- A text with the characters that its entities stand for. -/
def unescape? (s : List Char) : Option (List Char) := Text.scan character? s

theorem entity?_of_ne (hc : c ≠ '&') (s : List Char) : entity? (c :: s) = none := by
  have hentities : ∀ e ∈ entities, ∃ t, e.2 = '&' :: t := by
    intro e he
    have hhead : ∀ e ∈ entities, e.2.head? = some '&' := by decide
    exact ⟨e.2.tail, (List.eq_cons_of_mem_head? (hhead e he))⟩
  rw [entity?, List.findSome?_eq_none_iff]
  intro e he
  obtain ⟨t, ht⟩ := hentities e he
  rw [ht, Text.afterFirst?, if_neg hc.symm]
  rfl

/-- A character comes back from its image, whatever stands behind it. -/
theorem character?_image (c : Char) (rest : List Char) :
    character? (image c ++ rest) = some (c, rest) := by
  rcases image_cases c with ⟨e, he, rfl, himage⟩ | ⟨hnot, himage⟩
  · rw [himage]
    simp only [entities, List.mem_cons, List.not_mem_nil, or_false] at he
    rcases he with rfl | rfl | rfl | rfl <;> rfl
  · have hc : c ≠ '&' := hnot ('&', "&amp;".toList) List.mem_cons_self
    rw [himage, List.singleton_append, character?, entity?_of_ne hc]
    rfl

/-- Escaping is undone. -/
theorem unescape?_flatMap_image (s : List Char) : unescape? (s.flatMap image) = some s := by
  induction s with
  | nil => exact Text.scan_nil character?
  | cons c s ih =>
      rw [List.flatMap_cons]
      refine Text.scan_cons (character?_image c _) ?_ ih
      rw [List.length_append]
      exact Nat.lt_add_of_pos_left (List.length_pos_iff.mpr (image_ne_nil c))

/-- Replacing the characters one after the other in the whole text comes to replacing each of
    them once: an escaped text is made of the images of the characters. No angle bracket and no
    quote is left in it, and every ampersand of it begins an entity. Taking the entities for the
    characters that they stand for gives back the text, whatever entities it held itself. -/
theorem texts_escaped (s : String) :
    (escape s).toList = s.toList.flatMap image ∧
    ('<' ∉ (escape s).toList ∧ '>' ∉ (escape s).toList ∧ '"' ∉ (escape s).toList) ∧
    (∀ before rest, (escape s).toList = before ++ '&' :: rest →
      ∃ e ∈ entities, e.2 <+: '&' :: rest) ∧
    unescape? (escape s).toList = some s.toList := by
  rw [toList_escape]
  exact ⟨rfl, ⟨not_mem_flatMap_image (by decide), not_mem_flatMap_image (by decide),
    not_mem_flatMap_image (by decide)⟩, fun _ _ h => exists_entity h, unescape?_flatMap_image _⟩

/-- A text with an entity in it is not mixed up with what the entity stands for. -/
theorem texts_escaped_lookalike :
    (escape "&lt;<").toList = "&amp;lt;".toList ++ '&' :: "lt;".toList ∧
      (∃ e ∈ entities, e.2 <+: '&' :: "lt;".toList) ∧
      unescape? "&amp;lt;&lt;".toList = some "&lt;<".toList := by
  have htext : (escape "&lt;<").toList = "&amp;lt;".toList ++ '&' :: "lt;".toList := by decide
  obtain ⟨_, _, hentity, hback⟩ := texts_escaped "&lt;<"
  rw [htext] at hback
  exact ⟨htext, hentity _ _ htext, hback⟩

end Markup

end MapStyling
