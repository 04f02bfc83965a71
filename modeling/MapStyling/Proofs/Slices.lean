import MapStyling.Proofs.Grammar.Places
import MapStyling.Proofs.Separators

/-!
# Slices of Texts

Parts of a text between offsets in bytes.

A text is kept in UTF-8, and where something stands in it is told in bytes. A part of it is
taken between two offsets, and there is no such part if an offset is behind the end of the
text or inside of a character, or if the part would end before it begins. So a slice is an
option here, and that a function takes only slices that exist is something to be proved.

Cutting says it all: a text is cut at an offset in one way, into two texts of which the first
is as long as the offset says.

## Main definitions

* `Text.cutAt?`: A text cut at an offset.
* `Text.before?`, `Text.behind?`, `Text.slice?`: The parts that a slice takes.
* `Text.offsetOf?`: Where a character stands first.

## Theorems

* `Text.cutAt?_eq_some_iff`: The parts of a text that is cut.
* `Text.slice?_eq_some_iff`: What is between two offsets.
* `Text.offsetOf?_eq`: A character is found where a text comes apart at it.
-/

namespace MapStyling

namespace Text

variable {c : Char} {a b m s : List Char} {i j n : Nat}

/-- A text cut at an offset in bytes. There is no cut behind the end of a text, and none inside of
    a character. -/
def cutAt? : List Char → Nat → Option (List Char × List Char)
  | s, 0 => some ([], s)
  | [], _ + 1 => none
  | c :: s, n + 1 =>
    if c.utf8Size ≤ n + 1 then
      (cutAt? s (n + 1 - c.utf8Size)).map fun (before, behind) => (c :: before, behind)
    else none

/-- What is in front of an offset. -/
def before? (s : List Char) (n : Nat) : Option (List Char) := (cutAt? s n).map Prod.fst

/-- What is behind an offset. -/
def behind? (s : List Char) (n : Nat) : Option (List Char) := (cutAt? s n).map Prod.snd

/-- What is between two offsets. -/
def slice? (s : List Char) (i j : Nat) : Option (List Char) :=
  (before? s j).bind fun before => behind? before i

/-- The offset of the first place where a character stands. -/
def offsetOf? (c : Char) : List Char → Option Nat
  | [] => none
  | d :: s => if d = c then some 0 else (offsetOf? c s).map (· + d.utf8Size)

theorem cutAt?_zero (s : List Char) : cutAt? s 0 = some ([], s) := by
  cases s <;> rfl

theorem cutAt?_byteLength (a b : List Char) : cutAt? (a ++ b) (byteLength a) = some (a, b) := by
  induction a with
  | nil => exact cutAt?_zero b
  | cons c a ih =>
      have hpos := c.utf8Size_pos
      rw [byteLength_cons, List.cons_append]
      -- No character is empty, so the offset is not zero and a character is taken.
      obtain ⟨n, hn⟩ : ∃ n, c.utf8Size + byteLength a = n + 1 :=
        ⟨_, (Nat.succ_pred (by omega)).symm⟩
      have hrest : n + 1 - c.utf8Size = byteLength a := by omega
      rw [hn, cutAt?, if_pos (by omega), hrest, ih]
      rfl

/-- A text is cut in one way. -/
theorem cutAt?_eq_some_iff : cutAt? s n = some (a, b) ↔ s = a ++ b ∧ byteLength a = n := by
  constructor
  · intro h
    induction s generalizing n a with
    | nil =>
        cases n with
        | zero =>
            cases h
            exact ⟨rfl, rfl⟩
        | succ n => cases h
    | cons c s ih =>
        cases n with
        | zero =>
            cases h
            exact ⟨rfl, rfl⟩
        | succ n =>
            rw [cutAt?] at h
            -- The offset must not fall inside of the first character.
            split at h
            · next hle =>
              obtain ⟨⟨a', b'⟩, hcut, heq⟩ := Option.map_eq_some_iff.mp h
              cases heq
              obtain ⟨rfl, hlength⟩ := ih hcut
              refine ⟨rfl, ?_⟩
              rw [byteLength_cons]
              omega
            · cases h
  · rintro ⟨rfl, rfl⟩
    exact cutAt?_byteLength a b

theorem before?_byteLength (a b : List Char) : before? (a ++ b) (byteLength a) = some a := by
  rw [before?, cutAt?_byteLength]
  rfl

theorem behind?_byteLength (a b : List Char) : behind? (a ++ b) (byteLength a) = some b := by
  rw [behind?, cutAt?_byteLength]
  rfl

/-- A slice has a text in front of it that is as long as its first offset says, and ends at the
    second one. -/
theorem slice?_eq_some_iff : slice? s i j = some m ↔
    ∃ a b, s = a ++ (m ++ b) ∧ byteLength a = i ∧ byteLength (a ++ m) = j := by
  constructor
  · intro h
    obtain ⟨u, hu, hm⟩ := Option.bind_eq_some_iff.mp h
    obtain ⟨⟨u', b⟩, hcut, rfl⟩ := Option.map_eq_some_iff.mp hu
    obtain ⟨⟨a, m'⟩, hcut', rfl⟩ := Option.map_eq_some_iff.mp hm
    obtain ⟨rfl, hj⟩ := cutAt?_eq_some_iff.mp hcut
    obtain ⟨rfl, hi⟩ := cutAt?_eq_some_iff.mp hcut'
    exact ⟨a, b, List.append_assoc a m' b, hi, hj⟩
  · rintro ⟨a, b, rfl, rfl, rfl⟩
    rw [← List.append_assoc, slice?, before?_byteLength, Option.bind_some, behind?_byteLength]

/-- A character is found where a text comes apart at it. -/
theorem offsetOf?_eq (c : Char) (s : List Char) :
    offsetOf? c s = (splitAt? [c] s).map fun (before, _) => byteLength before := by
  induction s with
  | nil => rfl
  | cons d s ih =>
      rw [offsetOf?, splitAt?, afterFirst?]
      by_cases hd : d = c
      · rw [if_pos hd, if_pos hd.symm, afterFirst?]
        rfl
      · rw [if_neg hd, if_neg (Ne.symm hd), ih, Option.map_map, Option.map_map]
        refine Option.map_congr fun parts _ => ?_
        simp only [Function.comp_apply, byteLength_cons]
        exact Nat.add_comm _ _

end Text

end MapStyling
