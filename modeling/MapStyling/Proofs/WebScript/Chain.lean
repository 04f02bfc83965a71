import MapStyling.WebScript.Property
import Mathlib.Data.Finset.Card
import Mathlib.Data.Finset.Range
import Mathlib.Logic.Function.Iterate

/-!
# Chains of Parents

A property is looked for along the chain of parents of a value, with fuel. The
fuel is there for the reader of the code alone: parents never go in a circle,
because an object is not put under itself, so every chain ends before the fuel
does. What a look-up finds hence does not hang on the size of the store.

`Grounded` says that there are no circles by a rank that falls from an object
to its parent. A rank need not be bounded, and setting a parent raises the rank
of everything below the object by the same amount. The bound on chains comes
from counting the objects of the store with a smaller rank.

## Main definitions

* `Store.Above`: A value on the chain of another.
* `Store.Grounded`: No object is above itself.

## Theorems

* `iterate_parent_eq_null`: A chain ends within the fuel of a look-up.
* `lookUp_eq_of_le`: More fuel finds nothing else.
* `isAbove_iff`: With that fuel the search for a parent is complete.
* `Grounded.of_parent_set`: Setting a parent makes no circle.
-/

namespace MapStyling

namespace WebScript

theorem Value.eq_reference {v : Value} {a : Nat} (h : v.address? = some a) :
    v = .reference a := by
  cases v with
  | reference b => rw [Option.some.inj h]
  | _ => exact absurd h (by simp only [Value.address?, reduceCtorEq, not_false_eq_true])

namespace Store

/-- A value on the chain of parents that begins with another. -/
inductive Above (s : Store) (x : Value) : Value → Prop
  | self : Above s x x
  | parent {v : Value} (h : Above s x (s.parent v)) : Above s x v

/-- No object is above itself: a rank falls from every object to its parent. -/
def Grounded (s : Store) : Prop :=
  ∃ rank : Nat → Nat, ∀ a b, s.parent (.reference a) = .reference b → rank b < rank a

theorem parent_eq_of_getElem? {s t : Store} {a b : Nat} (h : t.cells[b]? = s.cells[a]?) :
    t.parent (.reference b) = s.parent (.reference a) := by
  simp only [parent, h]

theorem parent_reference_of_size_le {s : Store} {a : Nat} (h : s.size ≤ a) :
    s.parent (.reference a) = .null := by
  have hnone : s.cells[a]? = none := Array.getElem?_eq_none h
  simp only [parent, hnone]

theorem iterate_parent_null (s : Store) (n : Nat) : s.parent^[n] .null = .null := by
  induction n with
  | zero => rfl
  | succ n ih => rw [Function.iterate_succ_apply]; exact ih

theorem iterate_parent_mono {s : Store} {m n : Nat} (hle : m ≤ n) {v : Value}
    (h : s.parent^[m] v = .null) : s.parent^[n] v = .null := by
  rw [← Nat.sub_add_cancel hle, Function.iterate_add_apply, h]
  exact iterate_parent_null s (n - m)

/-- A value that is no object of the store stands at most three steps before the
    end of its chain. -/
theorem iterate_parent_of_no_address (s : Store) {v : Value} (h : v.address? = none) :
    s.parent^[3] v = .null := by
  cases v with
  | reference a => exact absurd h (by simp only [Value.address?, reduceCtorEq, not_false_eq_true])
  | common f => cases f <;> rfl
  | _ => rfl

/-- Number of the objects in the store with a smaller rank. -/
def countBelow (s : Store) (rank : Nat → Nat) (a : Nat) : Nat :=
  ((Finset.range s.size).filter fun b => rank b < rank a).card

theorem countBelow_lt {s : Store} {rank : Nat → Nat} {a b : Nat} (hb : b < s.size)
    (hlt : rank b < rank a) : s.countBelow rank b < s.countBelow rank a := by
  refine Finset.card_lt_card (Finset.ssubset_iff_of_subset ?_ |>.mpr ⟨b, ?_, ?_⟩)
  · intro x hx
    rw [Finset.mem_filter] at hx ⊢
    exact ⟨hx.1, hx.2.trans hlt⟩
  · exact Finset.mem_filter.mpr ⟨Finset.mem_range.mpr hb, hlt⟩
  · intro hmem
    exact Nat.lt_irrefl _ (Finset.mem_filter.mp hmem).2

theorem countBelow_le (s : Store) (rank : Nat → Nat) (a : Nat) :
    s.countBelow rank a ≤ s.size := by
  have h := Finset.card_filter_le (Finset.range s.size) fun b => rank b < rank a
  rwa [Finset.card_range] at h

/-- The chain of an object passes objects of smaller and smaller rank, and then at
    most four values that are no objects of the store. -/
theorem iterate_parent_of_rank {s : Store} {rank : Nat → Nat}
    (hrank : ∀ a b, s.parent (.reference a) = .reference b → rank b < rank a) :
    ∀ (n a : Nat), s.countBelow rank a ≤ n → s.parent^[n + 4] (.reference a) = .null := by
  intro n
  induction n with
  | zero =>
      intro a ha
      rw [Function.iterate_succ_apply]
      rcases hp : (s.parent (.reference a)).address? with _ | b
      · exact iterate_parent_of_no_address s hp
      · -- An object without objects of smaller rank has no parent in the store.
        have hpb := Value.eq_reference hp
        have hb : s.size ≤ b := by
          by_contra hlt
          have := countBelow_lt (by omega : b < s.size) (hrank a b hpb)
          omega
        rw [hpb, Function.iterate_succ_apply, parent_reference_of_size_le hb]
        exact iterate_parent_null s _
  | succ n ih =>
      intro a ha
      rw [Function.iterate_succ_apply]
      rcases hp : (s.parent (.reference a)).address? with _ | b
      · exact iterate_parent_mono (by omega) (iterate_parent_of_no_address s hp)
      · have hpb := Value.eq_reference hp
        rw [hpb]
        by_cases hb : b < s.size
        · have := countBelow_lt hb (hrank a b hpb)
          exact ih b (by omega)
        · rw [Function.iterate_succ_apply, parent_reference_of_size_le (by omega)]
          exact iterate_parent_null s _

theorem iterate_parent_eq_null {s : Store} (hg : s.Grounded) (v : Value) :
    s.parent^[s.longestChain] v = .null := by
  rcases hg with ⟨rank, hrank⟩
  rcases hv : v.address? with _ | a
  · exact iterate_parent_mono (by unfold longestChain; omega) (iterate_parent_of_no_address s hv)
  · rw [Value.eq_reference hv]
    exact iterate_parent_of_rank hrank s.size a (countBelow_le s rank a)

theorem lookUp_of_iterate {s : Store} (name : Units) : ∀ (n k : Nat) (v : Value),
    s.parent^[n] v = .null → n ≤ k → s.lookUp name k v = s.lookUp name n v := by
  intro n
  -- Fuel and chain are used up together, and what is left of the fuel finds nothing above null.
  induction n with
  | zero =>
      intro k v hv _
      have hnull : v = .null := hv
      rw [hnull]
      cases k <;> rfl
  | succ n ih =>
      intro k v hv hk
      rcases k with _ | k
      · omega
      rw [Function.iterate_succ_apply] at hv
      simp only [lookUp]
      split
      · rfl
      · split
        · rfl
        · exact ih k _ hv (by omega)

theorem lookUp_eq_of_le {s : Store} (hg : s.Grounded) (name : Units) {n : Nat}
    (hn : s.longestChain ≤ n) (v : Value) :
    s.lookUp name n v = s.lookUp name s.longestChain v :=
  lookUp_of_iterate name _ _ v (iterate_parent_eq_null hg v) hn

theorem above_of_isAbove {s : Store} {x : Value} : ∀ (n : Nat) (v : Value),
    s.isAbove x n v = true → s.Above x v := by
  intro n
  induction n with
  | zero =>
      intro v h
      exact absurd h (by simp only [isAbove, Bool.false_eq_true, not_false_eq_true])
  | succ n ih =>
      intro v h
      simp only [isAbove, Bool.or_eq_true, decide_eq_true_eq] at h
      rcases h with h | h
      · rw [h]
        exact .self
      · split at h
        · exact absurd h (by simp only [Bool.false_eq_true, not_false_eq_true])
        · exact .parent (ih _ h)

theorem not_above_null {s : Store} {x : Value} (hx : x ≠ .null) : ¬ s.Above x .null := by
  intro h
  generalize hv : Value.null = v at h
  induction h with
  | self => exact hx hv.symm
  | parent _ ih => exact ih (by rw [← hv]; rfl)

theorem isAbove_of_above {s : Store} {x : Value} (hx : x ≠ .null) : ∀ (n k : Nat) (v : Value),
    s.parent^[n] v = .null → n ≤ k → s.Above x v → s.isAbove x k v = true := by
  intro n
  induction n with
  | zero =>
      intro k v hv _ h
      have hnull : v = .null := hv
      exact absurd (hnull ▸ h) (not_above_null hx)
  | succ n ih =>
      intro k v hv hk h
      rcases k with _ | k
      · omega
      rw [Function.iterate_succ_apply] at hv
      simp only [isAbove, Bool.or_eq_true, decide_eq_true_eq]
      cases h with
      | self => exact Or.inl rfl
      | parent h =>
          refine Or.inr ?_
          split
          · next hp => exact absurd (hp ▸ h) (not_above_null hx)
          · exact ih k _ hv (by omega) h

/-- With the fuel of a look-up, a value is found above another if it is there. -/
theorem isAbove_iff {s : Store} (hg : s.Grounded) {x : Value} (hx : x ≠ .null) {n : Nat}
    (hn : s.longestChain ≤ n) (v : Value) : s.isAbove x n v = true ↔ s.Above x v :=
  ⟨above_of_isAbove n v, isAbove_of_above hx _ _ v (iterate_parent_eq_null hg v) hn⟩

theorem Grounded.of_parent {s t : Store} (hg : s.Grounded)
    (h : ∀ a b, t.parent (.reference a) = .reference b → s.parent (.reference a) = .reference b) :
    t.Grounded := by
  rcases hg with ⟨rank, hrank⟩
  exact ⟨rank, fun a b hb => hrank a b (h a b hb)⟩

/-- An object may be put under whatever it is not above. Everything it is above
    rises in rank with it. -/
theorem Grounded.of_parent_set {s t : Store} (hg : s.Grounded) {a : Nat} {v : Value}
    (hself : t.parent (.reference a) = v)
    (hother : ∀ b, b ≠ a → t.parent (.reference b) = s.parent (.reference b))
    (hv : ¬ s.Above (.reference a) v) : t.Grounded := by
  classical
  rcases hg with ⟨rank, hrank⟩
  refine ⟨fun x => if s.Above (.reference a) (.reference x)
    then rank x + (v.address?.elim 0 rank + 1) else rank x, ?_⟩
  intro x y hxy
  simp only []
  by_cases hxa : x = a
  · -- The object itself: its new parent has not risen.
    have hvy : v = .reference y := by rw [← hself, ← hxa, hxy]
    rw [hxa, if_neg (hvy ▸ hv), if_pos (Above.self : s.Above (.reference a) (.reference a))]
    simp only [hvy, Value.address?, Option.elim]
    omega
  · rw [hother x hxa] at hxy
    have hlt := hrank x y hxy
    by_cases hy : s.Above (.reference a) (.reference y)
    · rw [if_pos hy, if_pos (.parent (hxy ▸ hy))]
      omega
    · rw [if_neg hy]
      split <;> omega

end Store

end WebScript

end MapStyling
