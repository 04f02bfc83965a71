import MapStyling.Proofs.WebScript.Moved
import MapStyling.Proofs.WebScript.Sound
import MapStyling.WebScript.Conversion

/-!
# Twin Stores

A sound store and another store that is like it but for a move of addresses.

What is said of a single run and what is said of two runs side by side is
proved together. The two stores of a twin take every step at once: each of the
few ways in which a run changes a store is shown here to take twins to twins,
and to leave of the first store what it has to leave. A statement on one run is
the case in which the second store is the first, with nothing moved.

## Main definitions

* `Store.Twin`: The pair of stores.

## Theorems

* `Twin.add`: Twins that take like cells.
* `Twin.modify`: Twins with a change inside one cell.
* `Twin.setProperty?`: Twins after a property was set, or a fault on both sides.
-/

namespace MapStyling

namespace WebScript

/-- A sound store, and one that is like it but for a move of addresses. -/
structure Store.Twin (D : Nat → Prop) (m : Nat) (ρ : Nat → Nat) (s t : Store) : Prop where
  sound : s.Sound m
  alike : Store.Alike D ρ s t

/-- The properties of a cell, by name, after one of them was set. -/
theorem lookup_put_moved {ρ : Nat → Nat} {properties others : List (Units × Value)}
    (h : ∀ n, others.lookup n = (properties.lookup n).map (Value.moved ρ)) (name : Units)
    (v : Value) (n : Units) :
    (Entries.put name (v.moved ρ) others).lookup n
      = ((Entries.put name v properties).lookup n).map (Value.moved ρ) := by
  by_cases hn : n = name
  · rw [hn, Entries.lookup_put_self, Entries.lookup_put_self, Option.map_some]
  · rw [Entries.lookup_put_of_ne _ hn, Entries.lookup_put_of_ne _ hn, h n]

theorem lookup_withLength_moved {ρ : Nat → Nat} {properties others : List (Units × Value)}
    (h : ∀ n, others.lookup n = (properties.lookup n).map (Value.moved ρ)) (k : Nat)
    (n : Units) :
    (Store.withLength k others).lookup n
      = ((Store.withLength k properties).lookup n).map (Value.moved ρ) := by
  have hl : ∀ l : List (Units × Value), (Store.withLength k l).lookup n
      = if (index? n).all (· < k) then l.lookup n else none :=
    fun l => Entries.lookup_filter (fun name => (index? name).all (· < k)) n l
  rw [hl, hl, h n]
  split <;> rfl

theorem lengthOf?_moved (ρ : Nat → Nat) (v : Value) :
    Store.lengthOf? (v.moved ρ) = Store.lengthOf? v := by
  cases v <;> rfl

/-- Setting an own property of two like cells: both faults, or like cells. -/
theorem Cell.Alike.setOwn? {ρ : Nat → Nat} {c d : Cell} (h : Cell.Alike ρ c d) (name : Units)
    (v : Value) :
    Option.Rel (Cell.Alike ρ) (Store.setOwn? name v c) (Store.setOwn? name (v.moved ρ) d) := by
  cases h with
  | scope vs => exact .some (.scope vs)
  | object shape parent h =>
      -- Whether a property can be set is seen on the shape and the name, which do not move.
      cases shape with
      | plain => exact .some (.object .plain parent (lookup_put_moved h name v))
      | array n =>
          simp only [Store.setOwn?, Shape.moved, lengthOf?_moved]
          split
          · rcases Store.lengthOf? v with _ | k
            · exact .none
            · exact .some (.object (.array k) parent (lookup_withLength_moved h k))
          · exact .some (.object (.array _) parent (lookup_put_moved h name v))
      | closure f scopes self =>
          simp only [Store.setOwn?, Shape.moved]
          split
          · exact .some (.object (.closure f scopes self) parent h)
          · exact .some (.object (.closure f scopes self) parent (lookup_put_moved h name v))

theorem mem_addresses_put {shape : Shape} {parent v : Value} {name : Units}
    {properties : List (Units × Value)} {b : Nat}
    (h : b ∈ (Cell.object shape parent (Entries.put name v properties)).addresses) :
    v.address? = some b ∨ b ∈ (Cell.object shape parent properties).addresses := by
  have hown : ∀ b, b ∈ (Entries.put name v properties).filterMap (·.2.address?) →
      v.address? = some b ∨ b ∈ properties.filterMap (·.2.address?) := by
    intro b hb
    rcases List.mem_filterMap.mp hb with ⟨e, he, heb⟩
    rcases Entries.mem_put he with hput | hold
    · exact Or.inl (by rw [hput] at heb; exact heb)
    · exact Or.inr (List.mem_filterMap.mpr ⟨e, hold, heb⟩)
  cases shape <;> simp only [Cell.addresses, List.mem_append] at h ⊢ <;> grind

/-- What setting an own property makes of a cell: it stays of its kind, under its
    parent, and refers to nothing new but the value. -/
theorem setOwn?_eq_some {c d : Cell} {name : Units} {v : Value}
    (h : Store.setOwn? name v c = some d) :
    c.Becomes d ∧ d.parent = c.parent ∧
      ∀ b ∈ d.addresses, v.address? = some b ∨ b ∈ c.addresses := by
  -- A length may take properties away, and all else puts the one that is set.
  cases c with
  | scope vs =>
      simp only [Store.setOwn?, Option.some.injEq] at h
      subst h
      exact ⟨.refl _, rfl, fun b hb => Or.inr hb⟩
  | object shape parent properties =>
      cases shape with
      | plain =>
          simp only [Store.setOwn?, Option.some.injEq] at h
          subst h
          exact ⟨.object .plain _ _ _ _, rfl, fun b => mem_addresses_put⟩
      | array n =>
          simp only [Store.setOwn?] at h
          split at h
          · rcases Option.map_eq_some_iff.mp h with ⟨k, _, hd⟩
            subst hd
            refine ⟨.object (.array n k) _ _ _ _, rfl, fun b hb => Or.inr ?_⟩
            simp only [Cell.addresses, List.mem_append] at hb ⊢
            refine hb.imp_left fun hb => ?_
            rcases List.mem_filterMap.mp hb with ⟨e, he, heb⟩
            exact List.mem_filterMap.mpr ⟨e, (List.mem_filter.mp he).1, heb⟩
          · simp only [Option.some.injEq] at h
            subst h
            refine ⟨.object (.array n _) _ _ _ _, rfl, fun b hb => ?_⟩
            have hb' : b ∈ (Cell.object (.array n) parent
              (Entries.put name v properties)).addresses := hb
            exact mem_addresses_put hb'
      | closure f scopes self =>
          simp only [Store.setOwn?] at h
          split at h
          · simp only [Option.some.injEq] at h
            subst h
            exact ⟨.refl _, rfl, fun b hb => Or.inr hb⟩
          · simp only [Option.some.injEq] at h
            subst h
            exact ⟨.object (.refl _) _ _ _ _, rfl, fun b => mem_addresses_put⟩

namespace Cell

/-- An object with another parent, and any other cell as it is. -/
def setParent (v : Value) : Cell → Cell
  | .object shape _ properties => .object shape v properties
  | c => c

theorem becomes_setParent (c : Cell) (v : Value) : c.Becomes (c.setParent v) := by
  cases c with
  | scope vs => exact .refl _
  | object shape p properties => exact .object (.refl shape) p v properties properties

theorem mem_addresses_setParent {c : Cell} {v : Value} {b : Nat}
    (h : b ∈ (c.setParent v).addresses) : v.address? = some b ∨ b ∈ c.addresses := by
  cases c with
  | scope vs => exact Or.inr h
  | object shape p properties =>
      cases shape <;>
        simp only [setParent, addresses, List.mem_append, Option.mem_toList] at h ⊢ <;> grind

theorem Alike.setParent {ρ : Nat → Nat} {c d : Cell} (h : Cell.Alike ρ c d) (v : Value) :
    Cell.Alike ρ (c.setParent v) (d.setParent (v.moved ρ)) := by
  cases h with
  | scope vs => exact .scope vs
  | object shape p hprops => exact .object shape v hprops

end Cell

namespace Store

/-- The parent of an object after one was set; other cells have none. -/
theorem eq_of_parent_setParent {s : Store} {a b : Nat} {v : Value}
    (h : (s.modify a (Cell.setParent v)).parent (.reference a) = .reference b) :
    v = .reference b := by
  rcases hc : s.cells[a]? with _ | c
  · simp only [parent, getElem?_modify_self, hc, Option.map_none, reduceCtorEq] at h
  · cases c with
    | scope vs =>
        simp only [parent, getElem?_modify_self, hc, Option.map_some, Cell.setParent,
          reduceCtorEq] at h
    | object shape p properties =>
        simpa only [parent, getElem?_modify_self, hc, Option.map_some, Cell.setParent] using h

/-- An object is put under what it is not above, so no circle closes. -/
theorem Grounded.setParent {s : Store} (hg : s.Grounded) {a : Nat} {v : Value}
    (hfree : ¬s.Above (.reference a) v) : (s.modify a (Cell.setParent v)).Grounded := by
  rcases hc : s.cells[a]? with _ | c
  · exact hg.modify fun c hc' => by simp only [hc, reduceCtorEq] at hc'
  · cases c with
    | scope vs =>
        refine hg.modify fun c hc' => ?_
        rw [hc, Option.some.injEq] at hc'
        rw [← hc']
        rfl
    | object shape p properties =>
        refine hg.of_parent_set (a := a) (v := v) ?_ ?_ hfree
        · simp only [parent, getElem?_modify_self, hc, Option.map_some, Cell.setParent]
        · exact fun b hb => parent_eq_of_getElem? (getElem?_modify_of_ne s _ (Ne.symm hb))

namespace Alike

variable {D : Nat → Prop} {ρ : Nat → Nat} {s t : Store}

theorem add (h : Store.Alike D ρ s t) {c d : Cell} (hcd : Cell.Alike ρ c d)
    (hp : c.parent.address? = none) : Store.Alike D ρ (s.add c).2 (t.add d).2 where
  strictMono := h.strictMono
  globalObject := h.globalObject
  scriptScope := h.scriptScope
  next := by
    intro a ha
    rw [size_add] at ha ⊢
    have := h.next a (by omega)
    rw [size_add]
    omega
  fresh := fun a ha => h.fresh a (by rw [size_add] at ha; omega)
  parents := fun a b ha hab => h.parents a b ha (parent_of_parent_add hp hab)
  cells := by
    intro a ha
    -- An old cell, the new one, or none.
    by_cases hlt : a < s.size
    · rw [getElem?_add_lt hlt, getElem?_add_lt (h.lt_size_iff.mpr hlt)]
      exact h.cells a ha
    · by_cases hself : a = s.size
      · rw [hself, h.move_size, getElem?_add_self, getElem?_add_self]
        exact .some hcd
      · have hnext := h.next a (by omega)
        have hs : (s.add c).2.cells[a]? = none :=
          Array.getElem?_eq_none (by have := size_add s c; unfold size at *; omega)
        have ht : (t.add d).2.cells[ρ a]? = none :=
          Array.getElem?_eq_none (by have := size_add t d; unfold size at *; omega)
        rw [hs, ht]
        exact .none

theorem modify (h : Store.Alike D ρ s t) {a : Nat} (ha : D a) {f g : Cell → Cell}
    (hfg : ∀ c d, s.cells[a]? = some c → t.cells[ρ a]? = some d → Cell.Alike ρ c d →
      Cell.Alike ρ (f c) (g d))
    (hp : ∀ b, (s.modify a f).parent (.reference a) = .reference b → D b) :
    Store.Alike D ρ (s.modify a f) (t.modify (ρ a) g) where
  strictMono := h.strictMono
  globalObject := h.globalObject
  scriptScope := h.scriptScope
  next := by
    intro b hb
    rw [size_modify] at hb ⊢
    rw [size_modify]
    exact h.next b hb
  fresh := fun b hb => h.fresh b (by rwa [size_modify] at hb)
  parents := by
    intro b p hb hbp
    by_cases hab : a = b
    · exact hp p (hab ▸ hbp)
    · rw [parent_eq_of_getElem? (getElem?_modify_of_ne s f hab)] at hbp
      exact h.parents b p hb hbp
  cells := by
    intro b hb
    -- A move does not take other cells to the one that is changed.
    by_cases hab : a = b
    · subst hab
      rw [getElem?_modify_self, getElem?_modify_self]
      rcases h.cells_cases ha with ⟨hs, ht⟩ | ⟨c, d, hs, ht, hcd⟩
      · rw [hs, ht]
        exact .none
      · rw [hs, ht]
        exact .some (hfg c d hs ht hcd)
    · rw [getElem?_modify_of_ne s f hab,
        getElem?_modify_of_ne t g fun hc => hab (h.injective hc)]
      exact h.cells b hb

end Alike

namespace Twin

variable {D : Nat → Prop} {m : Nat} {ρ : Nat → Nat} {s t : Store}

theorem add (h : Store.Twin D m ρ s t) {c d : Cell} (hcd : Cell.Alike ρ c d)
    (hc : ∀ b ∈ c.addresses, b < s.size) (hp : c.parent.address? = none)
    (hf : ∀ f scopes self p properties, c = .object (.closure f scopes self) p properties →
      ∀ x ∈ f.targets, s.Writable m scopes x) :
    Store.Twin D m ρ (s.add c).2 (t.add d).2 :=
  ⟨h.sound.add hc hp hf, h.alike.add hcd hp⟩

/-- Twins with a change inside one cell that leaves its parent alone. -/
theorem modify (h : Store.Twin D m ρ s t) {a : Nat} (hm : m ≤ a) (ha : D a)
    {f g : Cell → Cell}
    (hf : ∀ c, s.cells[a]? = some c →
      c.Becomes (f c) ∧ (f c).parent = c.parent ∧ ∀ b ∈ (f c).addresses, b < s.size)
    (hfg : ∀ c d, s.cells[a]? = some c → t.cells[ρ a]? = some d → Cell.Alike ρ c d →
      Cell.Alike ρ (f c) (g d)) :
    Store.Twin D m ρ (s.modify a f) (t.modify (ρ a) g) := by
  refine ⟨h.sound.modify hm (fun c hc => ⟨(hf c hc).1, (hf c hc).2.2⟩)
    (h.sound.grounded.modify fun c hc => (hf c hc).2.1), h.alike.modify ha hfg ?_⟩
  intro b hb
  rcases hc : s.cells[a]? with _ | c
  · have hnone : (s.modify a f).cells[a]? = none := by rw [getElem?_modify_self, hc]; rfl
    simp only [Store.parent, hnone, reduceCtorEq] at hb
  · have hsome : (s.modify a f).cells[a]? = some (f c) := by
      rw [getElem?_modify_self, hc]; rfl
    rw [parent_reference hsome, (hf c hc).2.1, ← parent_reference hc] at hb
    exact h.alike.parents a b ha hb

theorem setParent? (h : Store.Twin D m ρ s t) {a : Nat} (hm : m ≤ a) (ha : D a) {v : Value}
    (hv : v.Below s.size) (hvD : v.In D) :
    Option.Rel (fun s' t' => Store.Twin D m ρ s' t' ∧ s.Keeps m s')
      (s.setParent? a v) (t.setParent? (ρ a) (v.moved ρ)) := by
  have hnull : v.moved ρ = .null ↔ v = .null := by
    cases v <;> simp only [Value.moved, reduceCtorEq]
  have habove := h.alike.isAbove_longestChain h.sound.grounded (x := .reference a)
    (by simp only [ne_eq, reduceCtorEq, not_false_eq_true]) hvD
  simp only [Value.moved] at habove
  simp only [Store.setParent?, hnull, Value.isObject_moved]
  split
  · -- The search for the object above its new parent has one answer in both stores.
    rw [show t.isAbove (.reference (ρ a)) t.longestChain (v.moved ρ)
      = s.isAbove (.reference a) s.longestChain v from habove]
    split
    · exact .none
    · next hfree =>
      have hnot : ¬s.Above (.reference a) v := by
        rw [← isAbove_iff h.sound.grounded (by simp only [ne_eq, reduceCtorEq,
          not_false_eq_true]) (Nat.le_refl _)]
        exact hfree
      refine .some ⟨⟨h.sound.modify hm (fun c hc => ⟨c.becomes_setParent v, fun b hb => ?_⟩)
        (h.sound.grounded.setParent hnot), h.alike.modify ha
          (fun _ _ _ _ hcd => hcd.setParent v) fun b hb => hvD b ?_⟩,
        .modify hm fun c _ => c.becomes_setParent v⟩
      · rcases Cell.mem_addresses_setParent hb with hnew | hold
        · exact hv b hnew
        · exact h.sound.closed a c hc b hold
      · rw [eq_of_parent_setParent hb]
        rfl
  · exact .some ⟨h, .refl m s⟩

/-- Twins after an own property was set in like cells. -/
theorem setOwn? (h : Store.Twin D m ρ s t) {a : Nat} (hm : m ≤ a) (ha : D a) (name : Units)
    {v : Value} (hv : v.Below s.size) {c d : Cell} (hs : s.cells[a]? = some c)
    (hcd : Cell.Alike ρ c d) :
    Option.Rel (fun s' t' => Store.Twin D m ρ s' t' ∧ s.Keeps m s')
      ((Store.setOwn? name v c).map fun c => s.modify a fun _ => c)
      ((Store.setOwn? name (v.moved ρ) d).map fun d => t.modify (ρ a) fun _ => d) := by
  have hrel := hcd.setOwn? name v
  generalize Store.setOwn? name (v.moved ρ) d = set' at hrel ⊢
  rcases hset : Store.setOwn? name v c with _ | c'
  · rw [hset] at hrel
    cases hrel
    exact .none
  · rw [hset] at hrel
    cases hrel with
    | some hcd' =>
        rcases setOwn?_eq_some hset with ⟨hbecomes, hparent, haddr⟩
        -- There is one cell at the address, so what is known of it is known of any.
        have hc : ∀ e, s.cells[a]? = some e →
            e.Becomes c' ∧ c'.parent = e.parent ∧ ∀ b ∈ c'.addresses, b < s.size := by
          intro e he
          rw [hs, Option.some.injEq] at he
          subst he
          refine ⟨hbecomes, hparent, fun b hb => ?_⟩
          rcases haddr b hb with hvb | hold
          · exact hv b hvb
          · exact h.sound.closed a _ hs b hold
        exact .some ⟨h.modify hm ha hc fun _ _ _ _ _ => hcd', .modify hm fun e he => (hc e he).1⟩

/-- Twins after a property was set on an object that is not below the mark. -/
theorem setProperty? (h : Store.Twin D m ρ s t) {target : Value} (name : Units) {v : Value}
    (hm : ∀ a, target.address? = some a → m ≤ a) (ht : target.In D) (hv : v.Below s.size)
    (hvD : v.In D) :
    Option.Rel (fun s' t' => Store.Twin D m ρ s' t' ∧ s.Keeps m s')
      (s.setProperty? target name v) (t.setProperty? (target.moved ρ) name (v.moved ρ)) := by
  cases target with
  | undefined => exact .none
  | null => exact .none
  | reference a =>
      have ha : D a := ht a rfl
      have hma : m ≤ a := hm a rfl
      have hown := h.alike.own? ht name
      have hcommon := h.alike.isCommon h.sound.grounded ht
      -- The object of globals is the only one that refuses its constants, and it does not move.
      have hglobal : ρ a = globalObject ↔ a = globalObject := by
        have heq := h.alike.injective.eq_iff (a := a) (b := globalObject)
        rwa [h.alike.globalObject] at heq
      simp only [Value.moved_reference] at hown hcommon ⊢
      simp only [Store.setProperty?, hown, hcommon, hglobal, Option.isNone_map]
      split
      · exact h.setParent? hma ha hv hvD
      · split
        · exact .some ⟨h, .refl m s⟩
        · rcases h.alike.cells_cases ha with ⟨hs, ht⟩ | ⟨c, d, hs, ht, hcd⟩
          · rw [hs, ht]
            exact .some ⟨h, .refl m s⟩
          · rw [hs, ht]
            exact h.setOwn? hma ha name hv hs hcd
  | _ => exact .some ⟨h, .refl m s⟩

end Twin

end Store

end WebScript

end MapStyling
