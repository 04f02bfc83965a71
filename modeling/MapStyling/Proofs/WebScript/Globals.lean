import MapStyling.Proofs.WebScript.Writes

/-!
# Global Variables

The two cells that all scripts share, and stores that are alike behind them.

Every store starts with these two cells, and its past shows in them first. So
two stores with different pasts are compared behind the shared cells, where one
of them has what was built just now and the other has a copy of it. Setting a
global variable changes the first of the two cells and leaves the comparison
alone.

The copy may stand anywhere, and cells that nothing refers to may come after it.
That is why a comparison with a store goes on when the store has grown.

## Main definitions

* `unshared`: Addresses behind the two cells.
* `Store.setGlobal`: A store after a global variable was set.
* `Store.Grows`: A store with more cells.

## Theorems

* `Alike.of_grown`: The comparison with a store that has grown.
* `Grows.global?`: Global variables are the same in a store that has grown.
* `Grows.alike`: Stores that have grown alike from one.
* `grows_evaluateLiteral`: What reading a literal does to a store.
-/

namespace MapStyling

namespace WebScript

/-- Addresses behind the two cells that all scripts share. -/
def unshared (a : Nat) : Prop := Store.scriptScope < a

/-- A store with more cells, where those that were there are as they were. -/
structure Store.Grows (s t : Store) : Prop where
  size_le : s.size ≤ t.size
  cells : ∀ a : Nat, a < s.size → t.cells[a]? = s.cells[a]?

/-- Names of global variables that can be written to, and that are only that. -/
structure Settable (name : Units) : Prop where
  ne_parentName : name ≠ parentName
  not_constant : Store.constants.lookup name = none

/-- A cell with an own property set, as long as it is a plain object. -/
def Cell.setPlain (name : Units) (v : Value) : Cell → Cell
  | .object .plain p properties => .object .plain p (Entries.put name v properties)
  | c => c

namespace Store

/-- A store after a global variable was set. -/
def setGlobal (s : Store) (name : Units) (v : Value) : Store :=
  s.modify Store.globalObject (Cell.setPlain name v)

section

variable {m : Nat} {s : Store} {name : Units} {v : Value}

theorem size_setGlobal (s : Store) (name : Units) (v : Value) :
    (s.setGlobal name v).size = s.size :=
  size_modify s _ _

theorem getElem?_setGlobal_of_ne (s : Store) (name : Units) (v : Value) {a : Nat}
    (ha : 0 < a) : (s.setGlobal name v).cells[a]? = s.cells[a]? :=
  getElem?_modify_of_ne s _ (Nat.ne_of_lt ha)

theorem modify_congr {a : Nat} {f g : Cell → Cell} (h : ∀ c, s.cells[a]? = some c → f c = g c) :
    s.modify a f = s.modify a g := by
  refine congrArg Store.mk (Array.ext_getElem? fun b => ?_)
  rw [Array.getElem?_modify, Array.getElem?_modify]
  split
  · next heq =>
    rcases hc : s.cells[b]? with _ | c
    · rfl
    · rw [Option.map_some, Option.map_some, h c (heq ▸ hc)]
  · rfl

theorem Sound.setProperty?_global (h : s.Sound m) (hname : Settable name) (v : Value) :
    s.setProperty? (.reference Store.globalObject) name v = some (s.setGlobal name v) := by
  rcases h.globalObject with ⟨p, properties, hc⟩
  have hconstant : (constants.lookup name).isSome = false := by rw [hname.not_constant]; rfl
  have hcongr : s.modify Store.globalObject
    (fun _ => Cell.setPlain name v (.object .plain p properties))
      = s.setGlobal name v := by
    refine modify_congr fun c hc' => ?_
    rw [hc, Option.some.injEq] at hc'
    rw [← hc']
  rw [← hcongr]
  simp only [Store.setProperty?, hname.ne_parentName, decide_false, Bool.false_and,
    Bool.false_eq_true, if_false, hconstant, Bool.and_false, hc, setOwn?, Option.map_some]
  rfl

theorem Sound.own?_setGlobal (h : s.Sound m) (name : Units) (v : Value) :
    (s.setGlobal name v).own? (.reference Store.globalObject) name = some v := by
  rcases h.globalObject with ⟨p, properties, hc⟩
  simp only [own?, Store.setGlobal, getElem?_modify_self, hc, Option.map_some, Option.bind_some,
    Cell.setPlain, Cell.own?, Entries.lookup_put_self]

/-- Of a global variable that is set twice, the second value stays. -/
theorem setGlobal_setGlobal (s : Store) (name : Units) (v w : Value) :
    (s.setGlobal name v).setGlobal name w = s.setGlobal name w := by
  have hcell : ∀ c : Cell, (c.setPlain name v).setPlain name w = c.setPlain name w := by
    intro c
    cases c with
    | scope vs => rfl
    | object shape p properties =>
        cases shape with
        | plain => simp only [Cell.setPlain, Entries.put_put]
        | _ => rfl
  refine congrArg Store.mk (Array.ext_getElem? fun a => ?_)
  simp only [Store.setGlobal, Store.modify, Array.getElem?_modify]
  split
  · rcases s.cells[a]? with _ | c
    · rfl
    · simp only [Option.map_some, hcell]
  · rfl

/-- A property that the global object has itself is a global variable. -/
theorem global?_of_own? (hname : Settable name)
    (hown : s.own? (.reference Store.globalObject) name = some v) : s.global? name = some v := by
  simp only [global?, hname.not_constant, property?, longestChain, lookUp, hown, Option.none_or]

end

namespace Grows

variable {s t u : Store}

theorem refl (s : Store) : s.Grows s := ⟨Nat.le_refl _, fun _ _ => rfl⟩

theorem trans (h : s.Grows t) (h' : t.Grows u) : s.Grows u :=
  ⟨Nat.le_trans h.size_le h'.size_le, fun a ha =>
    (h'.cells a (Nat.lt_of_lt_of_le ha h.size_le)).trans (h.cells a ha)⟩

/-- A property of a new object is set where the store has grown. -/
theorem setProperty? (h : s.Grows t) {target v : Value} {name : Units}
    (htarget : target.In (fun a => s.size ≤ a)) (hu : t.setProperty? target name v = some u) :
    s.Grows u := by
  refine ⟨by rw [size_setProperty? hu]; exact h.size_le, fun a ha => ?_⟩
  have hne : target.address? ≠ some a := by
    intro heq
    have hle : s.size ≤ a := htarget a heq
    omega
  rw [getElem?_setProperty? hu hne, h.cells a ha]

theorem add (h : s.Grows t) (c : Cell) : s.Grows (t.add c).2 := by
  refine h.trans ⟨?_, fun a ha => getElem?_add_lt ha⟩
  rw [size_add]
  omega

theorem setGlobal (h : s.Grows t) (name : Units) (v : Value) :
    (s.setGlobal name v).Grows (t.setGlobal name v) := by
  refine ⟨by rw [size_setGlobal, size_setGlobal]; exact h.size_le, fun a ha => ?_⟩
  rw [size_setGlobal] at ha
  simp only [Store.setGlobal, modify, Array.getElem?_modify, h.cells a ha]

/-- What is looked up in the cells of a sound store is the same when it has grown. -/
theorem lookUp (h : s.Grows t) (hs : s.Sound 0) (name : Units) :
    ∀ (n : Nat) (v : Value), v.Below s.size → t.lookUp name n v = s.lookUp name n v := by
  intro n
  induction n with
  | zero => intro v _; rfl
  | succ n ih =>
      intro v hv
      -- The cell of a value that was there is as it was, and so is its parent.
      have hown : t.own? v name = s.own? v name := by
        cases v with
        | reference a => simp only [own?, h.cells a (hv a rfl)]
        | _ => rfl
      have hparent : t.parent v = s.parent v := by
        cases v with
        | reference a => exact parent_eq_of_getElem? (h.cells a (hv a rfl))
        | common f => cases f <;> rfl
        | _ => rfl
      have hrest := ih (s.parent v) (hs.below_parent v)
      simp only [Store.lookUp, hown, hparent]
      rcases s.own? v name with _ | found
      · revert hrest
        cases s.parent v <;> intro hrest <;> first | rfl | exact hrest
      · rfl

/-- Global variables are the same in a store that has grown. -/
theorem global? (h : s.Grows t) (hs : s.Sound 0) {name : Units} (hname : Settable name) :
    t.global? name = s.global? name := by
  have hbelow : (Value.reference Store.globalObject).Below s.size :=
    Value.below_reference (Nat.lt_trans Nat.zero_lt_one hs.scriptScope_lt)
  have hlookUp := h.lookUp hs name t.longestChain _ hbelow
  have hfuel : s.longestChain ≤ t.longestChain := Nat.add_le_add_right h.size_le 4
  rw [lookUp_eq_of_le hs.grounded name hfuel] at hlookUp
  simp only [Store.global?, hname.not_constant, property?, hlookUp, hname.ne_parentName,
    decide_false, Bool.false_and, Bool.false_eq_true, if_false]

end Grows

end Store

section

variable {ρ τ : Nat → Nat}

theorem Value.moved_congr {v : Value} (h : ∀ a, v.address? = some a → τ a = ρ a) :
    v.moved τ = v.moved ρ := by
  cases v with
  | reference a => rw [moved_reference, moved_reference, h a rfl]
  | _ => rfl

/-- Whether two cells are alike hangs on the addresses alone that the first one holds. -/
theorem Cell.Alike.congr {c d : Cell} (hcd : Cell.Alike ρ c d)
    (h : ∀ a ∈ c.addresses, τ a = ρ a) : Cell.Alike τ c d := by
  -- Variables, the parent, what a closure holds and properties are moved alike.
  cases hcd with
  | scope vs =>
      have hmap : (vs.map fun x => (x.1, x.2.moved ρ)) = vs.map fun x => (x.1, x.2.moved τ) := by
        refine List.map_congr_left fun x hx => ?_
        refine Prod.ext rfl (Variable.mk.injEq .. ▸ ⟨?_, rfl⟩)
        rcases hv : x.2.value with _ | v
        · rfl
        · have hmem : ∀ a, v.address? = some a → τ a = ρ a := fun a ha =>
            h a (List.mem_filterMap.mpr ⟨x, hx, by rw [hv]; exact ha⟩)
          rw [Option.map_some, Option.map_some, Value.moved_congr hmem]
      rw [hmap]
      exact .scope vs
  | object shape parent hprops =>
      rename_i properties others
      have hparent : parent.moved ρ = parent.moved τ :=
        (Value.moved_congr fun a ha => h a (mem_addresses_of_parent ha)).symm
      have hshape : shape.moved ρ = shape.moved τ := by
        cases shape with
        | closure f scopes self =>
            have hscopes : scopes.map ρ = scopes.map τ := List.map_congr_left fun a ha =>
              (h a (List.mem_append_left _ (List.mem_append_left _ ha))).symm
            have hself : self.moved ρ = self.moved τ := (Value.moved_congr fun a ha =>
              h a (List.mem_append_left _
                (List.mem_append_right _ (Option.mem_toList.mpr ha)))).symm
            rw [Shape.moved, Shape.moved, hscopes, hself]
        | _ => rfl
      rw [hparent, hshape]
      refine .object shape parent fun n => ?_
      rw [hprops n]
      rcases hv : properties.lookup n with _ | v
      · rfl
      · have hmem := Entries.mem_of_lookup hv
        rw [Option.map_some, Option.map_some, Value.moved_congr fun a ha =>
          h a (mem_addresses_of_property hmem ha)]

end

namespace Store

namespace Alike

variable {D : Nat → Prop} {ρ : Nat → Nat} {s t u : Store}

/-- Stores that are alike on a part are so on a smaller one. -/
theorem mono (h : Store.Alike D ρ s t) {E : Nat → Prop} (hE : ∀ a, E a → D a)
    (hfresh : ∀ a, s.size ≤ a → E a)
    (hparents : ∀ a b, E a → s.parent (.reference a) = .reference b → E b) :
    Store.Alike E ρ s t where
  strictMono := h.strictMono
  globalObject := h.globalObject
  scriptScope := h.scriptScope
  next := h.next
  fresh := hfresh
  parents := hparents
  cells := fun a ha => h.cells a (hE a ha)

/-- Where a sound store is compared with one that has grown, the new addresses of the
    first are moved behind what has been added to the second. -/
theorem of_grown (h : Store.Alike D ρ s t) {m : Nat} (hs : s.Sound m) (hsize : t.size ≤ u.size)
    (hcells : ∀ a, D a → a < s.size → u.cells[ρ a]? = t.cells[ρ a]?) :
    Store.Alike D (fun a => if a < s.size then ρ a else a + (u.size - s.size)) s u where
  strictMono := by
    have hle := h.size_le
    intro a b hab
    dsimp only
    -- Cells of the first store go where they went, in front of those that it does not have.
    split
    · next ha =>
      split
      · exact h.strictMono hab
      · have hlt := h.lt_size_iff.mpr ha
        omega
    · rw [if_neg (by omega)]
      omega
  globalObject := by
    have hlt : Store.globalObject < s.size := Nat.lt_trans Nat.zero_lt_one hs.scriptScope_lt
    rw [if_pos hlt]
    exact h.globalObject
  scriptScope := by
    rw [if_pos hs.scriptScope_lt]
    exact h.scriptScope
  next := by
    intro a ha
    have hle := h.size_le
    rw [if_neg (by omega)]
    omega
  fresh := h.fresh
  parents := h.parents
  cells := by
    intro a ha
    split
    · next hlt =>
      rw [hcells a ha hlt]
      rcases h.cells_cases ha with ⟨hc, hd⟩ | ⟨c, d, hc, hd, hcd⟩
      · rw [hc, hd]
        exact .none
      · rw [hc, hd]
        exact .some (hcd.congr fun b hb => if_pos (hs.closed a c hc b hb))
    · -- Behind the end of the first store is the end of the other one.
      have hle := h.size_le
      have hnone : s.cells[a]? = none := Array.getElem?_eq_none (by unfold size at *; omega)
      have hnone' : u.cells[a + (u.size - s.size)]? = none :=
        Array.getElem?_eq_none (by unfold size at *; omega)
      rw [hnone, hnone']
      exact .none

/-- The comparison does not see what is in the other cells. -/
theorem left (h : Store.Alike D ρ s t) (hsize : u.size = s.size)
    (hcells : ∀ a, D a → u.cells[a]? = s.cells[a]?) : Store.Alike D ρ u t where
  strictMono := h.strictMono
  globalObject := h.globalObject
  scriptScope := h.scriptScope
  next := by
    rw [hsize]
    exact h.next
  fresh := by
    rw [hsize]
    exact h.fresh
  parents := by
    intro a b ha hab
    rw [parent_eq_of_getElem? (hcells a ha)] at hab
    exact h.parents a b ha hab
  cells := by
    intro a ha
    rw [hcells a ha]
    exact h.cells a ha

/-- Stores with the same cells, but for the order in which properties were put. -/
theorem of_rel (hsize : t.size = s.size)
    (h : ∀ a : Nat, Option.Rel (Cell.Alike id) s.cells[a]? t.cells[a]?) :
    Store.Alike everywhere id s t where
  strictMono := strictMono_id
  globalObject := rfl
  scriptScope := rfl
  next := fun _ _ => by rw [hsize]; rfl
  fresh := fun _ _ => trivial
  parents := fun _ _ _ _ => trivial
  cells := fun a _ => h a

theorem rel_refl (c : Option Cell) : Option.Rel (Cell.Alike id) c c := by
  cases c with
  | none => exact .none
  | some c => exact .some (Cell.alike_id c)

end Alike

/-- Any sound store is a copy of one that has the shared cells alone. -/
theorem Sound.alike_shared {s t : Store} (hsound : s.Sound 0) (hs : s.size = 2)
    (h : t.Sound 0) : ∃ ρ, Store.Alike unshared ρ s t := by
  have hscope := hsound.scriptScope_lt
  have hself : Store.Alike unshared id s s := by
    refine (Alike.refl s).mono (fun _ _ => trivial) (fun a ha => ?_) fun a b ha hab => ?_
    · exact Nat.lt_of_lt_of_le hscope ha
    · have hle : s.size ≤ a := by rw [hs]; exact ha
      rw [parent_reference_of_size_le hle] at hab
      cases hab
  have hlt := h.scriptScope_lt
  refine ⟨_, hself.of_grown hsound (u := t) (by rw [hs]; exact hlt) fun a ha hlt => ?_⟩
  have hgt : 1 < a := ha
  omega

/-- Two stores that have grown from one are alike if what was added is. -/
theorem Grows.alike {s t u : Store} (h : u.Grows s) (h' : u.Grows t)
    (ha : Store.Alike (fun a => u.size ≤ a) id s t) : Store.Alike everywhere id s t := by
  have hsize : t.size = s.size := by
    have hnext := ha.next s.size (Nat.le_refl _)
    change s.size + s.size = s.size + t.size at hnext
    omega
  refine .of_rel hsize fun a => ?_
  by_cases hlt : a < u.size
  · rw [h.cells a hlt, h'.cells a hlt]
    exact Alike.rel_refl _
  · exact ha.cells a (Nat.le_of_not_lt hlt)

/-- Global variables of two names are found in the same way, whichever was set first. -/
theorem Sound.alike_exchanged {s : Store} {m : Nat} (h : s.Sound m) {n k : Units} (hne : n ≠ k)
    (v w : Value) : Store.Alike everywhere id ((s.setGlobal k w).setGlobal n v)
      ((s.setGlobal n v).setGlobal k w) := by
  refine .of_rel (by simp only [size_setGlobal]) fun a => ?_
  by_cases ha : a = Store.globalObject
  · rcases h.globalObject with ⟨p, properties, hc⟩
    have hcell : ∀ (n k : Units) (v w : Value), ((s.setGlobal k w).setGlobal n v).cells[a]?
        = some (.object .plain p (Entries.put n v (Entries.put k w properties))) := by
      intro n k v w
      rw [ha, setGlobal, getElem?_modify_self, setGlobal, getElem?_modify_self, hc]
      rfl
    rw [hcell, hcell]
    have halike : Cell.Alike id (.object .plain p (Entries.put n v (Entries.put k w properties)))
        (.object (Shape.plain.moved id) (p.moved id)
          (Entries.put k w (Entries.put n v properties))) := by
      refine .object _ _ fun name => ?_
      have hid : Value.moved id = id := funext Value.moved_id
      rw [hid, Option.map_id]
      by_cases hn : name = n
      · rw [hn, Entries.lookup_put_of_ne w hne, Entries.lookup_put_self, Entries.lookup_put_self]
        rfl
      · rw [id, Entries.lookup_put_of_ne v hn]
        by_cases hk : name = k
        · rw [hk, Entries.lookup_put_self, Entries.lookup_put_self]
        · rw [Entries.lookup_put_of_ne w hk, Entries.lookup_put_of_ne w hk,
            Entries.lookup_put_of_ne v hn]
    rw [Value.moved_id] at halike
    exact .some halike
  · have hpos : 0 < a := Nat.pos_of_ne_zero ha
    simp only [getElem?_setGlobal_of_ne _ _ _ hpos]
    exact Alike.rel_refl _

end Store

/-- A literal adds cells to a store and leaves those alone that were there. -/
theorem grows_evaluateLiteral (x : Expression) (s : Store) : s.Grows (evaluateLiteral x s).2 := by
  have hadd : ∀ (t : Store) (c : Cell), t.Grows (t.add c).2 := fun t c =>
    ⟨by rw [Store.size_add]; omega, fun a ha => Store.getElem?_add_lt ha⟩
  cases x with
  | function name parameters body =>
      cases name with
      | none => exact hadd _ _
      | some name =>
          simp only [evaluateLiteral, Store.setVariable]
          -- The scope of the name is set last, and it is new itself.
          have hadded := (hadd s (.scope [(name, ⟨none, .fixed⟩)])).trans (hadd _
            (scriptClosure ⟨name, parameters, body, false⟩ [s.size, Store.scriptScope]))
          refine ⟨by rw [Store.size_modify]; exact hadded.size_le, fun a ha => ?_⟩
          rw [Store.getElem?_modify_of_ne _ _ (Nat.ne_of_gt ha)]
          exact hadded.cells a ha
  | arrow parameters body => exact hadd _ _
  | _ => exact .refl s

/-- A literal is a function in a cell that is added, or it leaves every store alone. -/
theorem evaluateLiteral_cases (x : Expression) :
    (∀ s, (evaluateLiteral x s).2.isCallable (evaluateLiteral x s).1 = true ∧
        ∃ a, s.size ≤ a ∧ (evaluateLiteral x s).1 = .reference a) ∨
      ∀ s, (evaluateLiteral x s).2 = s ∧
        (evaluateLiteral x s).2.isCallable (evaluateLiteral x s).1 = false := by
  have hone : ∀ (s : Store) (f : Function) (scopes : List Nat),
      (s.add (scriptClosure f scopes)).2.isCallable (.reference s.size) = true := by
    intro s f scopes
    simp only [Store.isCallable, Store.closure?, Store.getElem?_add_self, scriptClosure,
      Option.isSome_some]
  cases x with
  | function name parameters body =>
      cases name with
      | none => exact Or.inl fun s => ⟨hone s _ _, s.size, Nat.le_refl _, rfl⟩
      | some name =>
          refine Or.inl fun s => ⟨?_, _, by rw [Store.size_add]; omega, rfl⟩
          -- The name is bound in the scope, and that is not the cell of the function.
          generalize ht : (s.add (.scope [(name, ⟨none, .fixed⟩)])).2 = t
          have hne : s.size ≠ t.size := by
            rw [← ht, Store.size_add]
            omega
          simp only [evaluateLiteral, ht, Store.isCallable, Store.closure?, Store.setVariable,
            Store.getElem?_modify_of_ne _ _ hne, Store.getElem?_add_self, scriptClosure,
            Option.isSome_some]
  | arrow parameters body => exact Or.inl fun s => ⟨hone s _ _, s.size, Nat.le_refl _, rfl⟩
  | _ => exact Or.inr fun s => ⟨rfl, rfl⟩

end WebScript

end MapStyling
