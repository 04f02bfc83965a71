import MapStyling.Proofs.WebScript.Chain
import Mathlib.Order.WellFounded

/-!
# Stores with Moved Cells

Two stores that hold the same cells at different addresses.

Addresses are handed out in order, so a store in which more has happened holds
what another one holds, only further up and with cells in between that nothing
refers to. A map of addresses says where each cell has gone. It keeps the order
of addresses, leaves the two cells that all scripts share in their places, and
takes the next free address of one store to that of the other, which is why it
still fits after both have taken a new cell.

Scripts see properties by name alone, so the properties of two cells are
compared by look-up and not as lists.

A part of the store can be left out of the comparison, as long as no object of
the rest inherits from it.

## Main definitions

* `Value.moved`, `Shape.moved`: The same at moved addresses.
* `Cell.Alike`: Two cells that hold the same but for the move.
* `Store.Alike`: Two stores of that kind, on a part of the addresses.

## Theorems

* `Store.Alike.property?`, `Store.Alike.resolve?`, `Store.Alike.global?`,
  `Store.Alike.closure?`, `Store.Alike.arrayLength?`: What is read from the two
  stores is the same but for the move.
-/

namespace MapStyling

namespace WebScript

/-- A value with its address moved. -/
def Value.moved (ρ : Nat → Nat) : Value → Value
  | reference a => reference (ρ a)
  | v => v

/-- A variable with the address of its value moved. -/
def Variable.moved (ρ : Nat → Nat) (x : Variable) : Variable :=
  ⟨x.value.map (Value.moved ρ), x.mutability⟩

/-- A shape with its addresses moved. -/
def Shape.moved (ρ : Nat → Nat) : Shape → Shape
  | plain => plain
  | array n => array n
  | closure f scopes self => closure f (scopes.map ρ) (self.moved ρ)

/-- Whether the address of a value, if it has one, lies in a part of a store. -/
def Value.In (D : Nat → Prop) (v : Value) : Prop :=
  ∀ a, v.address? = some a → D a

/-- Two cells that hold the same but for the move. -/
inductive Cell.Alike (ρ : Nat → Nat) : Cell → Cell → Prop
  | scope (vs : List (Units × Variable)) :
      Alike ρ (.scope vs) (.scope (vs.map fun x => (x.1, x.2.moved ρ)))
  | object (shape : Shape) (parent : Value) {properties others : List (Units × Value)}
      (h : ∀ n, others.lookup n = (properties.lookup n).map (Value.moved ρ)) :
      Alike ρ (.object shape parent properties) (.object (shape.moved ρ) (parent.moved ρ) others)

/-- Two stores that hold the same cells on a part of the addresses, but for the
    move. -/
structure Store.Alike (D : Nat → Prop) (ρ : Nat → Nat) (s t : Store) : Prop where
  strictMono : StrictMono ρ
  globalObject : ρ Store.globalObject = Store.globalObject
  scriptScope : ρ Store.scriptScope = Store.scriptScope
  next : ∀ a, s.size ≤ a → ρ a + s.size = a + t.size
  fresh : ∀ a, s.size ≤ a → D a
  parents : ∀ a b, D a → s.parent (.reference a) = .reference b → D b
  cells : ∀ a, D a → Option.Rel (Cell.Alike ρ) s.cells[a]? t.cells[ρ a]?

/-- The whole store. -/
def everywhere : Nat → Prop := fun _ => True

namespace Value

theorem in_everywhere (v : Value) : v.In everywhere := fun _ _ => trivial

theorem in_of_no_address {D : Nat → Prop} {v : Value} (h : v.address? = none) : v.In D := by
  intro a ha
  rw [h] at ha
  exact absurd ha (by simp only [reduceCtorEq, not_false_eq_true])

theorem moved_reference (ρ : Nat → Nat) (a : Nat) :
    (reference a).moved ρ = reference (ρ a) := rfl

theorem isObject_moved (ρ : Nat → Nat) (v : Value) : (v.moved ρ).isObject = v.isObject := by
  cases v <;> rfl

theorem isNothing_moved (ρ : Nat → Nat) (v : Value) : (v.moved ρ).isNothing = v.isNothing := by
  cases v <;> rfl

theorem truth_moved (ρ : Nat → Nat) (v : Value) : (v.moved ρ).truth = v.truth := by
  cases v <;> rfl

theorem moved_of_no_address {ρ : Nat → Nat} {v : Value} (h : v.address? = none) :
    v.moved ρ = v := by
  cases v with
  | reference a => exact absurd h (by simp only [address?, reduceCtorEq, not_false_eq_true])
  | _ => rfl

theorem moved_id (v : Value) : v.moved id = v := by
  cases v <;> rfl

theorem moved_injective {ρ : Nat → Nat} (hρ : Function.Injective ρ) :
    Function.Injective (Value.moved ρ) := by
  intro v w h
  cases v <;> cases w <;>
    simp_all only [moved, reduceCtorEq, reference.injEq, boolean.injEq, number.injEq,
      text.injEq, method.injEq, common.injEq]
  · exact hρ h

end Value

theorem Variable.moved_id (x : Variable) : x.moved id = x := by
  rcases x with ⟨_ | v, m⟩
  · rfl
  · simp only [Variable.moved, Option.map_some, Value.moved_id]

theorem Shape.moved_id (shape : Shape) : shape.moved id = shape := by
  cases shape with
  | closure f scopes self => simp only [Shape.moved, List.map_id, Value.moved_id]
  | _ => rfl

theorem Cell.alike_id (c : Cell) : Cell.Alike id c c := by
  cases c with
  | scope vs =>
      have h : Cell.Alike id (.scope vs) (.scope (vs.map fun x => (x.1, x.2.moved id))) :=
        .scope vs
      simpa only [Variable.moved_id, Prod.mk.eta, List.map_id'] using h
  | object shape parent properties =>
      have hlook : ∀ n, properties.lookup n = (properties.lookup n).map (Value.moved id) := by
        intro n
        rcases properties.lookup n with _ | v
        · rfl
        · simp only [Option.map_some, Value.moved_id]
      have h := Cell.Alike.object shape parent hlook
      simpa only [Shape.moved_id, Value.moved_id] using h

theorem Cell.Alike.own? {ρ : Nat → Nat} {c d : Cell} (h : Cell.Alike ρ c d) (name : Units) :
    d.own? name = (c.own? name).map (Value.moved ρ) := by
  cases h with
  | scope vs => rfl
  | object shape parent h =>
      cases shape with
      | plain => exact h name
      | array n =>
          simp only [Cell.own?, Shape.moved, h name]
          split <;> rfl
      | closure f scopes self =>
          simp only [Cell.own?, Shape.moved, h name]
          split
          · rfl
          · split <;> rfl

namespace Store.Alike

variable {D : Nat → Prop} {ρ : Nat → Nat} {s t : Store}

theorem injective (h : Store.Alike D ρ s t) : Function.Injective ρ := h.strictMono.injective

theorem size_le (h : Store.Alike D ρ s t) : s.size ≤ t.size := by
  have hn := h.next s.size (Nat.le_refl _)
  have hle := h.strictMono.le_apply (x := s.size)
  omega

theorem move_size (h : Store.Alike D ρ s t) : ρ s.size = t.size := by
  have hn := h.next s.size (Nat.le_refl _)
  omega

theorem lt_size_iff (h : Store.Alike D ρ s t) {a : Nat} : ρ a < t.size ↔ a < s.size := by
  rw [← h.move_size]
  exact h.strictMono.lt_iff_lt

theorem longestChain_le (h : Store.Alike D ρ s t) : s.longestChain ≤ t.longestChain := by
  unfold Store.longestChain
  exact Nat.add_le_add_right h.size_le 4

/-- A store is like itself with nothing moved. -/
theorem refl (s : Store) : Store.Alike everywhere id s s where
  strictMono := strictMono_id
  globalObject := rfl
  scriptScope := rfl
  next := fun _ _ => rfl
  fresh := fun _ _ => trivial
  parents := fun _ _ _ _ => trivial
  cells := fun a _ => by
    rcases hc : s.cells[a]? with _ | c
    · simp only [id, hc]
      exact .none
    · simp only [id, hc]
      exact .some (Cell.alike_id c)

/-- The cells at an address: both stores have one, or neither has. -/
theorem cells_cases (h : Store.Alike D ρ s t) {a : Nat} (ha : D a) :
    (s.cells[a]? = none ∧ t.cells[ρ a]? = none) ∨
      ∃ c d, s.cells[a]? = some c ∧ t.cells[ρ a]? = some d ∧ Cell.Alike ρ c d := by
  have hr := h.cells a ha
  rcases hs : s.cells[a]? with _ | c
  · rw [hs] at hr
    rcases ht : t.cells[ρ a]? with _ | d
    · exact Or.inl ⟨rfl, rfl⟩
    · rw [ht] at hr
      cases hr
  · rw [hs] at hr
    rcases ht : t.cells[ρ a]? with _ | d
    · rw [ht] at hr
      cases hr
    · rw [ht] at hr
      cases hr with
      | some hcd => exact Or.inr ⟨c, d, rfl, rfl, hcd⟩

theorem parent (h : Store.Alike D ρ s t) {v : Value} (hv : v.In D) :
    t.parent (v.moved ρ) = (s.parent v).moved ρ := by
  cases v with
  | reference a =>
      simp only [Value.moved, Store.parent]
      rcases h.cells_cases (hv a rfl) with ⟨hs, ht⟩ | ⟨c, d, hs, ht, hcd⟩
      · simp only [hs, ht]
      · simp only [hs, ht]
        cases hcd <;> rfl
  | common f => cases f <;> rfl
  | _ => rfl

theorem in_parent (h : Store.Alike D ρ s t) {v : Value} (hv : v.In D) : (s.parent v).In D := by
  intro b hb
  cases v with
  | reference a => exact h.parents a b (hv a rfl) (Value.eq_reference hb)
  | common f =>
      cases f <;>
        exact absurd hb (by simp only [Store.parent, Value.address?, reduceCtorEq,
          not_false_eq_true])
  | _ =>
      exact absurd hb (by simp only [Store.parent, Value.address?, reduceCtorEq,
        not_false_eq_true])

theorem own? (h : Store.Alike D ρ s t) {v : Value} (hv : v.In D) (name : Units) :
    t.own? (v.moved ρ) name = (s.own? v name).map (Value.moved ρ) := by
  -- Only a reference has its properties in the store.
  cases v with
  | reference a =>
      simp only [Value.moved, Store.own?]
      rcases h.cells_cases (hv a rfl) with ⟨hs, ht⟩ | ⟨c, d, hs, ht, hcd⟩
      · rw [hs, ht]
        rfl
      · rw [hs, ht]
        exact hcd.own? name
  | text u =>
      simp only [Value.moved, Store.own?]
      split
      · rfl
      · rcases index? name with _ | i
        · rfl
        · rcases hu : u[i]? with _ | unit <;> simp only [hu, Option.bind_some, Option.map_none,
            Option.map_some, Value.moved]
  | method family n =>
      simp only [Value.moved, Store.own?]
      split <;> rfl
  | common f =>
      simp only [Value.moved, Store.own?, Family.method?]
      split <;> rfl
  | _ => rfl

theorem lookUp (h : Store.Alike D ρ s t) (name : Units) : ∀ (n : Nat) {v : Value}, v.In D →
    t.lookUp name n (v.moved ρ) = (s.lookUp name n v).map (Value.moved ρ) := by
  intro n
  induction n with
  | zero => intro v _; rfl
  | succ n ih =>
      intro v hv
      simp only [Store.lookUp, h.own? hv name]
      rcases s.own? v name with _ | found
      · rw [h.parent hv]
        simp only [Option.map_none]
        have hp := ih (h.in_parent hv)
        revert hp
        cases s.parent v <;> intro hp <;> first | rfl | exact hp
      · rfl

theorem isAbove (h : Store.Alike D ρ s t) (x : Value) : ∀ (n : Nat) {v : Value}, v.In D →
    t.isAbove (x.moved ρ) n (v.moved ρ) = s.isAbove x n v := by
  intro n
  induction n with
  | zero => intro v _; rfl
  | succ n ih =>
      intro v hv
      have heq : (v.moved ρ = x.moved ρ) ↔ v = x := (Value.moved_injective h.injective).eq_iff
      simp only [Store.isAbove, heq, h.parent hv]
      have hp := ih (h.in_parent hv)
      revert hp
      cases s.parent v <;> intro hp <;> first | rfl | exact congrArg _ hp

/-- With the fuel of the other store, the search for a parent has the same answer. -/
theorem isAbove_longestChain (h : Store.Alike D ρ s t) (hg : s.Grounded) {x : Value}
    (hx : x ≠ .null) {v : Value} (hv : v.In D) :
    t.isAbove (x.moved ρ) t.longestChain (v.moved ρ) = s.isAbove x s.longestChain v := by
  rw [h.isAbove x _ hv, Bool.eq_iff_iff, isAbove_iff hg hx h.longestChain_le,
    isAbove_iff hg hx (Nat.le_refl _)]

theorem isCommon (h : Store.Alike D ρ s t) (hg : s.Grounded) {v : Value} (hv : v.In D) :
    t.isCommon (v.moved ρ) = s.isCommon v :=
  h.isAbove_longestChain hg (x := .common .object) (by simp only [ne_eq, reduceCtorEq,
    not_false_eq_true]) hv

theorem property? (h : Store.Alike D ρ s t) (hg : s.Grounded) {v : Value} (hv : v.In D)
    (name : Units) :
    t.property? (v.moved ρ) name = (s.property? v name).map (Value.moved ρ) := by
  have hl : t.lookUp name t.longestChain (v.moved ρ)
      = (s.lookUp name s.longestChain v).map (Value.moved ρ) := by
    rw [h.lookUp name _ hv, lookUp_eq_of_le hg name h.longestChain_le]
  simp only [Store.property?, hl, h.isCommon hg hv, h.parent hv]
  rcases s.lookUp name s.longestChain v with _ | found
  · simp only [Option.map_none]
    split <;> rfl
  · rfl

theorem global? (h : Store.Alike D ρ s t) (hg : s.Grounded) (h0 : D Store.globalObject)
    (name : Units) : t.global? name = (s.global? name).map (Value.moved ρ) := by
  have hp := h.property? hg (v := .reference Store.globalObject)
    (fun a ha => Option.some.inj ha ▸ h0) name
  rw [Value.moved_reference, h.globalObject] at hp
  have hc : ∀ v, constants.lookup name = some v → v.moved ρ = v := by
    intro v hv
    have hmem := Entries.mem_of_lookup hv
    simp only [constants, List.mem_cons, Prod.mk.injEq, List.not_mem_nil, or_false] at hmem
    rcases hmem with ⟨_, hv⟩ | ⟨_, hv⟩ | ⟨_, hv⟩ | ⟨_, hv⟩ <;> rw [hv]
    · rfl
    · rfl
    · rfl
    · rw [Value.moved_reference, h.globalObject]
  simp only [Store.global?, hp]
  rcases hl : constants.lookup name with _ | v
  · rfl
  · simp only [Option.some_or, Option.map_some, hc v hl]

theorem closure? (h : Store.Alike D ρ s t) {v : Value} (hv : v.In D) :
    t.closure? (v.moved ρ)
      = (s.closure? v).map fun c => (c.1, c.2.1.map ρ, c.2.2.moved ρ) := by
  cases v with
  | reference a =>
      simp only [Value.moved, Store.closure?]
      rcases h.cells_cases (hv a rfl) with ⟨hs, ht⟩ | ⟨c, d, hs, ht, hcd⟩
      · simp only [hs, ht, Option.map_none]
      · simp only [hs, ht]
        cases hcd with
        | scope vs => rfl
        | object shape parent _ => cases shape <;> rfl
  | _ => rfl

theorem arrayLength? (h : Store.Alike D ρ s t) {v : Value} (hv : v.In D) :
    t.arrayLength? (v.moved ρ) = s.arrayLength? v := by
  cases v with
  | reference a =>
      simp only [Value.moved, Store.arrayLength?]
      rcases h.cells_cases (hv a rfl) with ⟨hs, ht⟩ | ⟨c, d, hs, ht, hcd⟩
      · simp only [hs, ht]
      · simp only [hs, ht]
        cases hcd with
        | scope vs => rfl
        | object shape parent _ => cases shape <;> rfl
  | _ => rfl

theorem isCallable (h : Store.Alike D ρ s t) {v : Value} (hv : v.In D) :
    t.isCallable (v.moved ρ) = s.isCallable v := by
  cases v with
  | reference a =>
      have hc := h.closure? hv
      simp only [Value.moved] at hc ⊢
      simp only [Store.isCallable, hc, Option.isSome_map]
  | _ => rfl

theorem bindings (h : Store.Alike D ρ s t) {a : Nat} (ha : D a) :
    t.bindings (ρ a) = (s.bindings a).map fun x => (x.1, x.2.moved ρ) := by
  simp only [Store.bindings]
  rcases h.cells_cases ha with ⟨hs, ht⟩ | ⟨c, d, hs, ht, hcd⟩
  · simp only [hs, ht, List.map_nil]
  · simp only [hs, ht]
    cases hcd <;> rfl

theorem resolve? (h : Store.Alike D ρ s t) (name : Units) {scopes : List Nat}
    (hD : ∀ a ∈ scopes, D a) :
    t.resolve? name (scopes.map ρ)
      = (s.resolve? name scopes).map fun x => (ρ x.1, x.2.moved ρ) := by
  induction scopes with
  | nil => rfl
  | cons a outer ih =>
      simp only [List.map_cons, Store.resolve?, h.bindings (hD a List.mem_cons_self)]
      rw [Entries.lookup_map (Variable.moved ρ) name]
      rcases (s.bindings a).lookup name with _ | x
      · exact ih fun b hb => hD b (List.mem_cons_of_mem _ hb)
      · rfl

end Store.Alike

end WebScript

end MapStyling
