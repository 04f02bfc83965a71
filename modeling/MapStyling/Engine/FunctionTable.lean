/-!
# Function Tables

Functions by position, with positions that are empty.

A table grows when a position past its end is written, and the positions in
between are empty. Reading an empty position and reading past the end are the
same.

## Main definitions

* `FunctionTable`: The positions.
* `FunctionTable.get?`, `FunctionTable.set`, `FunctionTable.cut`: What can be
  done with them.

## Theorems

* `get?_set_self`, `get?_set_of_ne`: A written position holds what was written,
  and the others what they held, whether the table has grown or not.
* `slots_set_length`, `set_set`, `set_of_get?`: Writing past the last position, writing
  twice, and writing what is there.
-/

namespace MapStyling

/-- Functions by position. -/
structure FunctionTable (α : Type) where
  slots : List (Option α)

namespace FunctionTable

variable {α : Type}

def empty : FunctionTable α := ⟨[]⟩

/-- The function at a position, if there is one. -/
def get? (t : FunctionTable α) (index : Nat) : Option α :=
  (t.slots[index]?).join

/-- Putting a function, or none, at a position. -/
def set (t : FunctionTable α) (index : Nat) (f : Option α) : FunctionTable α :=
  ⟨(t.slots ++ List.replicate (index + 1 - t.slots.length) none).set index f⟩

/-- Dropping the positions from a count on. -/
def cut (t : FunctionTable α) (count : Nat) : FunctionTable α :=
  ⟨t.slots.take count⟩

theorem get?_set_self (t : FunctionTable α) (i : Nat) (f : Option α) :
    (t.set i f).get? i = f := by
  simp only [set, get?]
  rw [List.getElem?_set_self (by simp only [List.length_append, List.length_replicate]; omega)]
  rfl

theorem get?_set_of_ne (t : FunctionTable α) {i j : Nat} (f : Option α) (hne : i ≠ j) :
    (t.set i f).get? j = t.get? j := by
  simp only [set, get?]
  rw [List.getElem?_set_ne hne]
  -- Positions that the table has grown by are empty, as those past its end were.
  rcases Nat.lt_or_ge j t.slots.length with hj | hj
  · rw [List.getElem?_append_left hj]
  · rw [List.getElem?_append_right hj, List.getElem?_replicate, List.getElem?_eq_none hj]
    split <;> rfl

/-- Writing the position past the last one appends to a table. -/
theorem slots_set_length (t : FunctionTable α) (f : Option α) :
    (t.set t.slots.length f).slots = t.slots ++ [f] := by
  have hgrown : t.slots.length + 1 - t.slots.length = 1 := by omega
  simp only [set, hgrown, List.replicate_one]
  rw [List.set_append_right _ _ (Nat.le_refl _), Nat.sub_self, List.set_cons_zero]

/-- What is below a position and at it after it was written. -/
theorem take_slots_set (t : FunctionTable α) {i : Nat} (f : Option α) (hi : i ≤ t.slots.length) :
    (t.set i f).slots.take (i + 1) = t.slots.take i ++ [f] := by
  have hlength : i < (t.slots ++ List.replicate (i + 1 - t.slots.length) none).length := by
    simp only [List.length_append, List.length_replicate]
    omega
  simp only [set]
  rw [List.take_add_one, List.getElem?_set_self hlength, List.take_set_of_le (Nat.le_refl _),
    List.take_append_of_le_length hi]
  rfl

theorem length_slots_set (t : FunctionTable α) (i : Nat) (f : Option α) :
    (t.set i f).slots.length = max t.slots.length (i + 1) := by
  simp only [set, List.length_set, List.length_append, List.length_replicate]
  omega

theorem set_set (t : FunctionTable α) (i : Nat) (f g : Option α) :
    (t.set i f).set i g = t.set i g := by
  have hlength := length_slots_set t i f
  have hgrown : i + 1 - (t.set i f).slots.length = 0 := by omega
  rw [set, hgrown, List.replicate_zero, List.append_nil]
  simp only [set, List.set_set]

/-- Writing what is there already. -/
theorem set_of_get? {t : FunctionTable α} {i : Nat} {f : α} (h : t.get? i = some f) :
    t.set i (some f) = t := by
  rcases t with ⟨slots⟩
  have hslot : slots[i]? = some (some f) := Option.join_eq_some_iff.mp h
  rcases List.getElem?_eq_some_iff.mp hslot with ⟨hlt, hget⟩
  have hgrown : i + 1 - slots.length = 0 := by omega
  simp only [set, hgrown, List.replicate_zero, List.append_nil]
  rw [← hget, List.set_getElem_self]

end FunctionTable

end MapStyling
