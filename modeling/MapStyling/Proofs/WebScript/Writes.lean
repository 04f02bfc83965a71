import MapStyling.Proofs.WebScript.Literals

/-!
# Writes to Objects

What a sound store is after a property of an object was set from outside of the scripts.

An engine sets properties on any object, also on the two cells that all scripts share, which
scripts that are not allowed to write there leave alone. So it is not enough to know what a
script does. A write from outside puts a property in one object, or another parent above it,
and does nothing to a scope. Functions remember scopes and no properties, so what they may
write to is the same afterwards.

## Theorems

* `Store.setProperty?_eq_some`: A write changes one cell.
* `Store.scope_of_setProperty?`: It changes no scope.
* `Store.Sound.setProperty?`: It leaves a sound store, above any mark.
* `Store.sound_initial`: The store before the first script.
-/

namespace MapStyling

namespace WebScript

namespace Store

variable {m : Nat} {s t : Store} {target v : Value} {name : Units}

/-- Nothing is asked of functions in a store that is sound above no mark. -/
theorem Sound.zero (h : s.Sound m) : s.Sound 0 where
  mark_le := Nat.zero_le _
  closed := h.closed
  confined := fun _ _ _ _ _ _ _ x _ => writable_zero s _ x
  grounded := h.grounded
  globalObject := h.globalObject
  scriptScope := h.scriptScope

/-- Setting a property that is no fault changes the cell of the object, or nothing. -/
theorem setProperty?_eq_some (h : s.setProperty? target name v = some t) :
    t = s ∨ ∃ a f, target = .reference a ∧ t = s.modify a f := by
  cases target with
  | undefined | null =>
      exact absurd h (by simp only [setProperty?, reduceCtorEq, not_false_eq_true])
  | reference a =>
      simp only [setProperty?, setParent?] at h
      split at h
      · -- The parent is set, unless the object would come to stand above itself.
        split at h
        · split at h
          · cases h
          · exact Or.inr ⟨a, _, rfl, (Option.some.inj h).symm⟩
        · exact Or.inl (Option.some.inj h).symm
      · split at h
        · exact Or.inl (Option.some.inj h).symm
        · split at h
          · rcases Option.map_eq_some_iff.mp h with ⟨c, _, hc⟩
            exact Or.inr ⟨a, _, rfl, hc.symm⟩
          · exact Or.inl (Option.some.inj h).symm
  | _ => exact Or.inl (Option.some.inj h).symm

theorem size_setProperty? (h : s.setProperty? target name v = some t) : t.size = s.size := by
  rcases setProperty?_eq_some h with rfl | ⟨a, f, _, rfl⟩
  · rfl
  · exact size_modify s a f

/-- A property is set in the cell that its object refers to. -/
theorem getElem?_setProperty? (h : s.setProperty? target name v = some t) {b : Nat}
    (hb : target.address? ≠ some b) :
    t.cells[b]? = s.cells[b]? := by
  rcases setProperty?_eq_some h with rfl | ⟨a, f, rfl, rfl⟩
  · rfl
  · exact getElem?_modify_of_ne s f fun heq => hb (congrArg some heq)

/-- A scope has neither a parent nor properties, so nothing can be set on it. -/
theorem scope_of_setProperty? (hset : s.setProperty? target name v = some t) {a : Nat}
    {vs : List (Units × Variable)} (h : s.cells[a]? = some (.scope vs)) :
    t.cells[a]? = some (.scope vs) := by
  by_cases htarget : target.address? = some a
  · have hparent : s.parent (.reference a) = .null := by
      simp only [Store.parent, h]
    have hcommon : s.isCommon (.reference a) = false := by
      simp only [Store.isCommon, Store.longestChain, Store.isAbove, hparent, reduceCtorEq,
        decide_false, Bool.or_self]
    rw [Value.eq_reference htarget] at hset
    simp only [Store.setProperty?, hcommon, Bool.and_false, Bool.false_eq_true, if_false, h,
      Store.setOwn?, Option.map_some] at hset
    split at hset
    · rw [← Option.some.inj hset, h]
    · rw [← Option.some.inj hset, Store.getElem?_modify_self, h]
      rfl
  · rw [getElem?_setProperty? hset htarget, h]

/-- A property set in a sound store leaves a sound store. -/
theorem Sound.setProperty?_zero (h : s.Sound 0) (hv : v.Below s.size)
    (ht : s.setProperty? target name v = some t) : t.Sound 0 ∧ s.Keeps 0 t := by
  have hrel := h.twin.setProperty? name (fun _ _ => Nat.zero_le _) target.in_everywhere hv
    v.in_everywhere
  rw [ht] at hrel
  generalize s.setProperty? (target.moved id) name (v.moved id) = t? at hrel
  cases hrel with
  | some hst => exact ⟨hst.1.sound, hst.2⟩

/-- A variable is found where it was if the scopes are what they were. -/
theorem holder_congr (h : ∀ a, t.bindings a = s.bindings a) (name : Units) (scopes : List Nat) :
    t.holder name scopes = s.holder name scopes := by
  have hresolve : ∀ scopes, t.resolve? name scopes = s.resolve? name scopes := by
    intro scopes
    induction scopes with
    | nil => rfl
    | cons a outer ih => rw [resolve?, resolve?, h, ih]
  rw [holder, holder, hresolve]

/-- A store is as sound as another one with the same scopes and functions. -/
theorem Sound.rise (h : s.Sound m) (ht : t.Sound 0) (hk : s.Keeps 0 t) (hsize : t.size = s.size)
    (hscopes : ∀ (a : Nat) (vs : List (Units × Variable)), s.cells[a]? = some (.scope vs) →
      t.cells[a]? = some (.scope vs)) : t.Sound m where
  mark_le := by
    rw [hsize]
    exact h.mark_le
  closed := ht.closed
  grounded := ht.grounded
  globalObject := ht.globalObject
  scriptScope := ht.scriptScope
  confined := by
    have hbindings : ∀ a, t.bindings a = s.bindings a := by
      intro a
      rcases hc : s.cells[a]? with _ | c
      · have hnone : t.cells[a]? = none := by
          rw [Array.getElem?_eq_none_iff] at hc ⊢
          exact hsize.trans_le hc
        rw [bindings, bindings, hc, hnone]
      · cases c with
        | scope vs => rw [bindings, bindings, hc, hscopes a vs hc]
        | object shape p properties =>
            rcases hk.becomes a _ hc with ⟨d, hd, hcd⟩
            cases hcd
            rw [bindings, bindings, hc, hd]
    intro a f scopes self p properties ha x hx
    have hlt : a < s.size := hsize ▸ lt_size_of_getElem? ha
    have hc : s.cells[a]? = some s.cells[a] := Array.getElem?_eq_getElem hlt
    rcases hk.becomes a _ hc with ⟨d, hd, hcd⟩
    rw [ha, Option.some.injEq] at hd
    rw [← hd] at hcd
    -- A function that was there before has the code and the scopes it had.
    generalize s.cells[a] = c at hc hcd
    cases hcd with
    | object hshape q _ others _ => cases hshape with
      | closure g name _ _ =>
          have hwritable := h.confined a g scopes self q others hc x hx
          cases x with
          | name n => exact hwritable.trans_eq (holder_congr hbindings n scopes).symm
          | member => exact hwritable

/-- A property set in a sound store leaves a store that is as sound. -/
theorem Sound.setProperty? (h : s.Sound m) (hv : v.Below s.size)
    (ht : s.setProperty? target name v = some t) : t.Sound m ∧ s.Keeps 0 t := by
  rcases h.zero.setProperty?_zero hv ht with ⟨hsound, hkeeps⟩
  exact ⟨h.rise hsound hkeeps (size_setProperty? ht) fun _ _ => scope_of_setProperty? ht, hkeeps⟩

/-- The store before the first script. -/
theorem sound_initial (hm : m ≤ 2) : Store.initial.Sound m := by
  -- The store has an empty object and an empty scope, so nothing is referred to.
  have hcells : ∀ (a : Nat) (c : Cell), Store.initial.cells[a]? = some c →
      c = .object .plain (.common .object) [] ∨ c = .scope [] := by
    intro a c hc
    simpa only [Store.initial, List.mem_toArray, List.mem_cons, List.not_mem_nil, or_false]
      using Array.mem_of_getElem? hc
  exact {
    mark_le := hm
    closed := by
      intro a c hc b hb
      rcases hcells a c hc with heq | heq <;>
        (rw [heq] at hb; exact absurd hb List.not_mem_nil)
    confined := by
      intro a f scopes self p properties hc
      rcases hcells a _ hc with heq | heq <;> cases heq
    grounded := by
      refine ⟨fun _ => 0, fun a b hab => ?_⟩
      rcases hc : Store.initial.cells[a]? with _ | c
      · rw [Store.parent_reference_of_size_le (Array.getElem?_eq_none_iff.mp hc)] at hab
        cases hab
      · rw [Store.parent_reference hc] at hab
        rcases hcells a c hc with heq | heq <;> (rw [heq] at hab; cases hab)
    globalObject := ⟨_, _, rfl⟩
    scriptScope := ⟨_, rfl⟩ }

end Store

end WebScript

end MapStyling
