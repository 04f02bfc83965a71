import MapStyling.Proofs.EmbeddedEngine.ShownFeatures
import MapStyling.Proofs.EmbeddedScript.Laws
import MapStyling.Proofs.Extents
import MapStyling.Proofs.WebEngine.ShownFeatures
import MapStyling.WebScript.Language

/-!
# Arrays as Extrusions

What an array comes to where an extrusion is asked for.

Two elements make an extrusion, and nothing but their number is asked. Each of them is read as
a number, as a script would convert it, and what cannot be converted is not a number. The
extrusion of two numbers that are none is the one that stands for heights without bound, so an
array of texts may come to what only the flag should come to.

An array is therefore decoded as an extrusion of numbers as long as it has another length or
both elements are numbers. For arrays of length two with other elements it is not: they have a
value although they should have none.

Reading an element may run scripts where it is an object. Reading a number does not, and so it
does not matter for the second element that the first one has been read.

## Main definitions

* `Decoding.elementKind`, `Decoding.elementNumber`: An element of an array.
* `Decoding.numericExtrusion`: The extrusion of an array of numbers, and none of all others.
* `Engine.KeepsElements`: Engines on which a number can be read without changing others.

## Theorems

* `Decoding.decode_extrude`: What arrays are decoded to.
* `EmbeddedEngine.keepsElements`, `WebScript.keepsElements`: Engines of this kind.
* `Decoding.arrays_as_extrusions`: When this is the extrusion of numbers, and when the one without
  bound.
-/

namespace MapStyling

namespace Decoding

variable {σ : Type} [Engine σ]

/-- Kind of an element of an array. -/
def elementKind (array : Handle) (i : Nat) (e : σ) : ValueKind :=
  let pushed := (Engine.pushElement array i).run e
  Engine.kind pushed.2 pushed.1

/-- An element of an array, read as a number. -/
def elementNumber (array : Handle) (i : Nat) (e : σ) : Float := ((element array i).run e).1

/-- The extrusion of an array of two numbers, and none of any other array. -/
def numericExtrusion (array : Handle) (e : σ) : StyleValue :=
  if Engine.length e array = 2 ∧ elementKind array 0 e = .number ∧ elementKind array 1 e = .number
  then .pair (Double.toSingle (elementNumber array 0 e)) (Double.toSingle (elementNumber array 1 e))
  else .none

/-- What an array is decoded to: its length is asked for, and then its elements one after the
    other. -/
theorem decode_extrude {array : Handle} {e : σ} (hkind : Engine.kind e array = .array) :
    ((decode .extrude array).run e).1 = if Engine.length e array = 2
      then .pair (Double.toSingle (elementNumber array 0 e))
        (Double.toSingle (elementNumber array 1 ((element array 0).run e).2))
      else .none := by
  rw [run_decode, hkind]
  unfold decodeArray
  rw [run_bind_state, run_get_state]
  by_cases hlength : Engine.length e array = 2
  · simp only [hlength, ne_eq, not_true_eq_false, if_true, if_false]
    rfl
  · simp only [hlength, ne_eq, not_false_eq_true, if_true, if_false]
    rfl

end Decoding

open Decoding (elementKind elementNumber element)

/-- Engines on which an element that is a number can be read without changing what the others
    are read as. -/
structure Engine.KeepsElements (σ : Type) [Engine σ] : Prop where
  kept : ∀ {e : σ} {array : Handle} {i : Nat}, Engine.kind e array = .array →
    elementKind array i e = .number →
      ∀ j, elementNumber array j ((element array i).run e).2 = elementNumber array j e

/-- A new value does not hide one that is there. -/
theorem ValueStack.getD_push {α : Type} {s : ValueStack α} {h : Handle} {absent : α} (a : α)
    (hne : (s.get? h).getD absent ≠ absent) :
    ((s.push a).2.get? h).getD absent = (s.get? h).getD absent := by
  have hlt : h.index < s.height := by
    by_contra hge
    have hnone : s.get? h = none := Array.getElem?_eq_none (Nat.not_lt.mp hge)
    rw [hnone] at hne
    exact hne rfl
  rw [get?_push_of_lt s a h hlt]

namespace EmbeddedEngine

variable {L : EmbeddedLanguage}

/-- Reading does nothing but put the element on top of the stack. -/
theorem keepsElements (hL : L.ShapeLaws) : Engine.KeepsElements (EmbeddedEngine L) where
  kept {e array i} hkind _ j := by
    have hnumber : ∀ e : EmbeddedEngine L,
        elementNumber array j e = numberOf
          (((elements (e.value array))[j]?).getD L.unit) := fun e =>
      congrArg numberOf (value_push _ e)
    have hvalue : ((Decoding.element array i).run e).2.value array = e.value array := by
      refine ValueStack.getD_push _ fun habsent => ?_
      have harray : kindOf L.unit = .array := by rwa [← habsent]
      rw [kindOf, hL.unit] at harray
      cases harray
    rw [hnumber, hnumber, hvalue]

end EmbeddedEngine

namespace WebEngine

variable {L : WebLanguage} {e : WebEngine L} {h : Handle}

theorem shape_of_kind (hkind : kind e h = .number) : L.shape (e.value h) = .number := by
  rw [kind] at hkind
  split at hkind
  case h_4 hshape => exact hshape
  case h_6 =>
    -- What is left is a function, an array or another object.
    split at hkind
    · cases hkind
    · split at hkind <;> cases hkind
  all_goals cases hkind

theorem isArray_of_kind (hkind : kind e h = .array) :
    L.shape (e.value h) = .other ∧ e.isArray (e.value h) = true := by
  rw [kind] at hkind
  split at hkind
  case h_6 hshape =>
    split at hkind
    · cases hkind
    · split at hkind
      · next harray => exact ⟨hshape, harray⟩
      · cases hkind
  all_goals cases hkind

end WebEngine

namespace WebScript

open WebEngine

variable {e : WebEngine language} {array : Handle}

/-- An element is a property that is read, and no script is run for it. -/
theorem run_pushElement_of_isArray (h : e.isArray (e.value array) = true) (i : Nat) :
    (pushElement array i).run e = (push (L := language) ((Store.property? e.context (e.value array)
      (indexName (UInt32.ofNat i).toNat)).getD .undefined)).run e := by
  rw [run_pushElement, if_pos h]
  rfl

/-- An element as a number is a matter of the store and of the value of the array. -/
theorem elementNumber_eq (h : e.isArray (e.value array) = true) (i : Nat) : elementNumber array i e
    = (((language.toNumber ((Store.property? e.context (e.value array)
      (indexName (UInt32.ofNat i).toNat)).getD .undefined)).run e.context).1).getD Double.nan := by
  change ((number ((pushElement array i).run e).1).run ((pushElement array i).run e).2).1 = _
  rw [run_pushElement_of_isArray h]
  generalize (Store.property? e.context (e.value array) _).getD Value.undefined = v
  change (((language.toNumber (((push (L := language) v).run e).2.value
    ((push (L := language) v).run e).1)).run e.context).1).getD Double.nan = _
  rw [value_push]

/-- Reading a number runs no script. -/
theorem run_number_of_kind {h : Handle} (hkind : kind e h = .number) :
    ((number h).run e).2 = e := by
  have hshape : Value.shape (e.value h) = .number := shape_of_kind hkind
  have hvalue : ∃ x, e.value h = Value.number x := by
    generalize e.value h = v at hshape
    cases v <;> cases hshape
    exact ⟨_, rfl⟩
  obtain ⟨x, hx⟩ := hvalue
  change { e with context := ((language.toNumber (e.value h)).run e.context).2 } = e
  rw [hx]
  rfl

/-- Reading an element that is a number does nothing but put it on top of the stack. -/
theorem keepsElements : Engine.KeepsElements (WebEngine language) where
  kept {e array i} hkind hnumber j := by
    rcases isArray_of_kind hkind with ⟨hshape, harray⟩
    have hread : ((element array i).run e).2 = ((pushElement array i).run e).2 := by
      change ((number ((pushElement array i).run e).1).run ((pushElement array i).run e).2).2 = _
      exact run_number_of_kind hnumber
    rw [hread, run_pushElement_of_isArray harray]
    generalize (Store.property? e.context (e.value array) _).getD Value.undefined = v
    have hvalue : ((push (L := language) v).run e).2.value array = e.value array := by
      refine ValueStack.getD_push _ fun habsent => ?_
      have hundefined : e.value array = Value.undefined := habsent
      rw [hundefined] at hshape
      cases hshape
    have harray' : ((push (L := language) v).run e).2.isArray
        (((push (L := language) v).run e).2.value array) = true := by
      rw [hvalue]
      exact harray
    rw [elementNumber_eq harray', elementNumber_eq harray, hvalue]
    rfl

end WebScript

namespace Decoding

variable {σ : Type} [Engine σ]

/-- An array is decoded as an extrusion of numbers if it has another length or if both of its
    elements are numbers, and not otherwise. It comes to the extrusion without bound if it has two
    elements and neither of them is read as a number. -/
theorem arrays_as_extrusions (h : Engine.KeepsElements σ) {array : Handle} {e : σ}
    (hkind : Engine.kind e array = .array) :
    let value := ((decode .extrude array).run e).1
    let low := elementNumber array 0 e
    let high := elementNumber array 1 ((element array 0).run e).2
    (value = if Engine.length e array = 2
      then .pair (Double.toSingle low) (Double.toSingle high) else .none) ∧
    (value = numericExtrusion array e ↔ (Engine.length e array = 2 →
      elementKind array 0 e = .number ∧ elementKind array 1 e = .number)) ∧
    (value = extrusionOfFlag true ↔ Engine.length e array = 2 ∧
      Double.datum low = .nan ∧ Double.datum high = .nan) := by
  intro value low high
  have hvalue : value = if Engine.length e array = 2
      then .pair (Double.toSingle low) (Double.toSingle high) else .none := decode_extrude hkind
  refine ⟨hvalue, ?_, ?_⟩
  · rw [hvalue, numericExtrusion]
    by_cases hlength : Engine.length e array = 2
    · -- If the first element is a number, the second one is still what it was after reading it.
      by_cases hnumbers : elementKind array 0 e = .number ∧ elementKind array 1 e = .number
      · have hhigh : high = elementNumber array 1 e := h.kept hkind hnumbers.1 1
        rw [if_pos hlength, if_pos ⟨hlength, hnumbers⟩, hhigh]
        exact iff_of_true rfl fun _ => hnumbers
      · rw [if_pos hlength, if_neg fun hboth => hnumbers hboth.2]
        exact iff_of_false StyleValue.noConfusion fun hboth => hnumbers (hboth hlength)
    · rw [if_neg hlength, if_neg fun hboth => hlength hboth.1]
      exact iff_of_true rfl fun h => absurd h hlength
  · rw [hvalue]
    by_cases hlength : Engine.length e array = 2
    · rw [if_pos hlength, extrusionOfFlag, if_pos rfl, StyleValue.pair.injEq,
        Double.toSingle_eq_nan_iff, Double.toSingle_eq_nan_iff]
      exact (and_iff_right hlength).symm
    · rw [if_neg hlength]
      exact iff_of_false StyleValue.noConfusion fun hboth => hlength hboth.1

/-- Two texts in an array come to the extrusion without bound, and not to none. -/
theorem arrays_as_extrusions_texts :
    let e : EmbeddedEngine EmbeddedScript.language :=
      { EmbeddedEngine.new with stack := ⟨#[.array [.text "a", .text "b"]]⟩ }
    Engine.kind e ⟨0⟩ = .array ∧ elementKind ⟨0⟩ 0 e = .string ∧ elementKind ⟨0⟩ 1 e = .string ∧
      numericExtrusion ⟨0⟩ e = .none ∧
      ((decode .extrude ⟨0⟩).run e).1 = extrusionOfFlag true := by
  intro e
  have harray : Engine.kind e ⟨0⟩ = .array := rfl
  have hnan : Double.datum Double.nan = .nan := by decide
  have hboth := arrays_as_extrusions (EmbeddedEngine.keepsElements EmbeddedScript.shapeLaws) harray
  exact ⟨harray, rfl, rfl, rfl, hboth.2.2.mpr ⟨rfl, hnan, hnan⟩⟩

end Decoding

end MapStyling
