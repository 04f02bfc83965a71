/-!
# Value Stacks

The values an engine has handed out, addressed by position.

A handle is a position and nothing more. Cutting the stack back makes the
handles above the cut read nothing, until other values take their places.

## Main definitions

* `Handle`: A position.
* `ValueStack`: The values.
* `ValueStack.push`, `ValueStack.get?`, `ValueStack.modify`, `ValueStack.cut`:
  What can be done with them.

## Theorems

* `get?_push_self`, `get?_push_of_lt`: A new value is under its handle and moves
  no other.
* `get?_modify_self`, `get?_modify_of_ne`: A change reaches one handle.
* `get?_cut`: Handles below a cut read on and the others read nothing.
* `cut_height`, `cut_push_of_le`: A cut at the top takes nothing away, and one below
  it takes a new value away.
-/

namespace MapStyling

/-- Position of a value on a stack. -/
structure Handle where
  index : Nat
  deriving DecidableEq, Repr

/-- Values addressed by handles. -/
structure ValueStack (α : Type) where
  values : Array α

namespace ValueStack

variable {α : Type}

def empty : ValueStack α := ⟨#[]⟩

def height (s : ValueStack α) : Nat := s.values.size

def isEmpty (s : ValueStack α) : Bool := s.values.isEmpty

/-- Putting a value on top. -/
def push (s : ValueStack α) (a : α) : Handle × ValueStack α :=
  (⟨s.height⟩, ⟨s.values.push a⟩)

/-- The value under a handle; nothing above the top. -/
def get? (s : ValueStack α) (h : Handle) : Option α :=
  s.values[h.index]?

/-- Changing the value under a handle; nothing happens above the top. -/
def modify (s : ValueStack α) (h : Handle) (f : α → α) : ValueStack α :=
  ⟨s.values.modify h.index f⟩

/-- Cutting back to a height; a stack that is not higher stays. -/
def cut (s : ValueStack α) (height : Nat) : ValueStack α :=
  ⟨s.values.take height⟩

theorem height_push (s : ValueStack α) (a : α) : (s.push a).2.height = s.height + 1 := by
  simp only [push, height, Array.size_push]

theorem height_modify (s : ValueStack α) (h : Handle) (f : α → α) :
    (s.modify h f).height = s.height := by
  simp only [modify, height, Array.size_modify]

theorem height_cut (s : ValueStack α) (n : Nat) : (s.cut n).height = min n s.height := by
  simp only [cut, height, Array.take_eq_extract, Array.size_extract, Nat.sub_zero]

theorem get?_push_self (s : ValueStack α) (a : α) :
    (s.push a).2.get? (s.push a).1 = some a := by
  simp only [push, get?, height, Array.getElem?_push_size]

theorem get?_push_of_lt (s : ValueStack α) (a : α) (h : Handle) (hlt : h.index < s.height) :
    (s.push a).2.get? h = s.get? h := by
  simp only [push, get?, Array.getElem?_push]
  rw [if_neg (by simp only [height] at hlt; omega)]

theorem get?_modify_self (s : ValueStack α) (h : Handle) (f : α → α) :
    (s.modify h f).get? h = (s.get? h).map f := by
  simp only [modify, get?, Array.getElem?_modify, if_pos]

theorem get?_modify_of_ne (s : ValueStack α) {h k : Handle} (f : α → α) (hne : h ≠ k) :
    (s.modify h f).get? k = s.get? k := by
  have hi : h.index ≠ k.index := fun he => hne (by cases h; cases k; simp_all)
  simp only [modify, get?, Array.getElem?_modify, if_neg hi]

/-- A cut takes away what it is above, and nothing else. -/
theorem get?_cut (s : ValueStack α) (n : Nat) (h : Handle) :
    (s.cut n).get? h = if h.index < n then s.get? h else none := by
  simp only [cut, get?, Array.take_eq_extract, Array.getElem?_extract, Nat.zero_add, Nat.sub_zero]
  rcases Nat.lt_or_ge h.index s.values.size with hs | hs
  · simp only [Nat.lt_min, hs, and_true]
  · rw [Array.getElem?_eq_none hs, ite_self, ite_self]

theorem toList_cut (s : ValueStack α) (n : Nat) :
    (s.cut n).values.toList = s.values.toList.take n := by
  simp only [cut, Array.take_eq_extract, Array.toList_extract, List.extract_eq_take_drop,
    Nat.sub_zero, List.drop_zero]

theorem cut_height (s : ValueStack α) : s.cut s.height = s := by
  rcases s with ⟨values⟩
  simp only [cut, height, Array.take_eq_extract, Array.extract_size]

theorem cut_zero (s : ValueStack α) : s.cut 0 = empty := by
  simp only [cut, empty, Array.extract_zero]

theorem cut_push_of_le (s : ValueStack α) (a : α) {n : Nat} (hle : n ≤ s.height) :
    (s.push a).2.cut n = s.cut n := by
  rcases s with ⟨values⟩
  simp only [cut, push, height, Array.take_eq_extract] at hle ⊢
  rw [Array.extract_push_of_le hle]

/-- A stack that is cut back to another is no lower. -/
theorem height_le_of_cut_eq {s t : ValueStack α} (h : s.cut t.height = t) :
    t.height ≤ s.height := by
  have hheight := congrArg height h
  rw [height_cut] at hheight
  omega

end ValueStack

end MapStyling
