import MapStyling.Proofs.WebScript.Chain
import MapStyling.Proofs.WebScript.Targets

/-!
# Sound Stores

What is true of the store at every moment of every run.

A store is sound above a mark if no cell refers past its end, no object is
above itself, the two cells that all scripts share are there, and every
function in it writes to nothing below the mark. With the mark at zero the last
says nothing, and soundness is what any script at all leaves behind. With the
mark at the size of the store it says that nothing that is there now will be
written to.

A run changes a store in few ways. It adds cells, it changes values inside
cells, it adds variables to a scope, and it may name a function. So a cell
stays of its kind, a function keeps its code, and a variable stays where it is.

## Main definitions

* `Cell.Becomes`: What may come of a cell.
* `Store.Keeps`: What may come of a store, with the cells below a mark as they
  were.
* `Store.Writable`: What may be written to from inside some scopes.
* `Store.Sound`: The invariant.

## Theorems

* `Keeps.writable`: What may be written to stays so.
* `Sound.add`, `Sound.modify`: A sound store with one more cell, or with one cell
  changed.
-/

namespace MapStyling

namespace WebScript

/-- What may come of a shape: a function may be named, and the length of an array
    may change. -/
inductive Shape.Becomes : Shape → Shape → Prop
  | plain : Becomes .plain .plain
  | array (m n : Nat) : Becomes (.array m) (.array n)
  | closure (f : Function) (name : Units) (scopes : List Nat) (self : Value) :
      Becomes (.closure f scopes self) (.closure { f with name } scopes self)

/-- What may come of a cell. -/
inductive Cell.Becomes : Cell → Cell → Prop
  | scope {vs ws : List (Units × Variable)}
      (h : ∀ n, (vs.lookup n).isSome = true → (ws.lookup n).isSome = true) :
      Becomes (.scope vs) (.scope ws)
  | object {shape other : Shape} (h : shape.Becomes other) (p q : Value)
      (properties others : List (Units × Value)) :
      Becomes (.object shape p properties) (.object other q others)

theorem Shape.Becomes.refl (shape : Shape) : shape.Becomes shape := by
  cases shape with
  | plain => exact .plain
  | array n => exact .array n n
  | closure f scopes self => exact .closure f f.name scopes self

theorem Shape.Becomes.trans {a b c : Shape} (h : a.Becomes b) (h' : b.Becomes c) :
    a.Becomes c := by
  cases h with
  | plain => exact h'
  | array m n => cases h' with
    | array _ k => exact .array m k
  | closure f name scopes self => cases h' with
    | closure _ other _ _ => exact .closure f other scopes self

theorem Cell.Becomes.refl (c : Cell) : c.Becomes c := by
  cases c with
  | scope vs => exact .scope fun _ h => h
  | object shape p properties => exact .object (.refl shape) p p properties properties

theorem Cell.Becomes.trans {a b c : Cell} (h : a.Becomes b) (h' : b.Becomes c) :
    a.Becomes c := by
  cases h with
  | scope h => cases h' with
    | scope h' => exact .scope fun n hn => h' n (h n hn)
  | object h p q _ _ => cases h' with
    | object h' _ r _ _ => exact .object (h.trans h') p r _ _

/-- What may come of a store, with the cells below a mark as they were. -/
structure Store.Keeps (m : Nat) (s t : Store) : Prop where
  below : ∀ a : Nat, a < m → t.cells[a]? = s.cells[a]?
  becomes : ∀ (a : Nat) (c : Cell), s.cells[a]? = some c →
    ∃ d, t.cells[a]? = some d ∧ c.Becomes d

/-- The scope that holds the variable of a name, or the global object. -/
def Store.holder (s : Store) (name : Units) (scopes : List Nat) : Nat :=
  ((s.resolve? name scopes).map Prod.fst).getD Store.globalObject

/-- What may be written to from inside some scopes without a change below a mark. -/
def Store.Writable (m : Nat) (s : Store) (scopes : List Nat) : Target → Prop
  | .name n => m ≤ s.holder n scopes
  | .member => m = 0

/-- The value that an object inherits from; scopes inherit from nothing. -/
def Cell.parent : Cell → Value
  | .scope _ => .null
  | .object _ p _ => p

/-- The address of a value, if it has one, is below a bound. -/
def Value.Below (n : Nat) (v : Value) : Prop :=
  ∀ a, v.address? = some a → a < n

/-- What is true of every store that scripts leave behind. -/
structure Store.Sound (m : Nat) (s : Store) : Prop where
  mark_le : m ≤ s.size
  closed : ∀ (a : Nat) (c : Cell), s.cells[a]? = some c → ∀ b ∈ c.addresses, b < s.size
  confined : ∀ (a : Nat) (f : Function) (scopes : List Nat) (self p : Value)
    (properties : List (Units × Value)),
    s.cells[a]? = some (.object (.closure f scopes self) p properties) →
      ∀ x ∈ f.targets, s.Writable m scopes x
  grounded : s.Grounded
  globalObject : ∃ p properties, s.cells[Store.globalObject]? = some (.object .plain p properties)
  scriptScope : ∃ vs, s.cells[Store.scriptScope]? = some (.scope vs)

namespace Value

theorem below_of_no_address {n : Nat} {v : Value} (h : v.address? = none) : v.Below n := by
  intro a ha
  rw [h] at ha
  exact absurd ha (by simp only [reduceCtorEq, not_false_eq_true])

theorem below_of_some_eq {n : Nat} {v w : Value} (h : some v = some w) (hv : v.address? = none) :
    w.Below n :=
  below_of_no_address (Option.some.inj h ▸ hv)

theorem Below.mono {m n : Nat} {v : Value} (h : v.Below m) (hle : m ≤ n) : v.Below n :=
  fun a ha => Nat.lt_of_lt_of_le (h a ha) hle

theorem below_reference {n a : Nat} (h : a < n) : (reference a).Below n := by
  intro b hb
  rw [← Option.some.inj hb]
  exact h

end Value

theorem mem_addresses_of_parent {shape : Shape} {parent : Value}
    {properties : List (Units × Value)} {a : Nat} (ha : parent.address? = some a) :
    a ∈ (Cell.object shape parent properties).addresses := by
  have hmem : a ∈ properties.filterMap (·.2.address?) ++ parent.address?.toList :=
    List.mem_append_right _ (Option.mem_toList.mpr ha)
  cases shape with
  | closure f scopes self => exact List.mem_append_right _ hmem
  | _ => exact hmem

theorem mem_addresses_of_property {shape : Shape} {parent v : Value}
    {properties : List (Units × Value)} {name : Units} {a : Nat} (hv : (name, v) ∈ properties)
    (ha : v.address? = some a) : a ∈ (Cell.object shape parent properties).addresses := by
  have hmem : a ∈ properties.filterMap (·.2.address?) ++ parent.address?.toList :=
    List.mem_append_left _ (List.mem_filterMap.mpr ⟨(name, v), hv, ha⟩)
  cases shape with
  | closure f scopes self => exact List.mem_append_right _ hmem
  | _ => exact hmem

namespace Store

theorem lt_size_of_getElem? {s : Store} {a : Nat} {c : Cell} (h : s.cells[a]? = some c) :
    a < s.size := by
  rcases Array.getElem?_eq_some_iff.mp h with ⟨hlt, _⟩
  exact hlt

theorem parent_reference {s : Store} {a : Nat} {c : Cell} (h : s.cells[a]? = some c) :
    s.parent (.reference a) = c.parent := by
  simp only [parent, h]
  cases c <;> rfl

theorem getElem?_add_lt {s : Store} {c : Cell} {a : Nat} (h : a < s.size) :
    (s.add c).2.cells[a]? = s.cells[a]? := by
  simp only [add, Array.getElem?_push]
  rw [if_neg (by unfold size at h; omega)]

theorem getElem?_add_self (s : Store) (c : Cell) : (s.add c).2.cells[s.size]? = some c := by
  simp only [add, size, Array.getElem?_push_size]

theorem size_add (s : Store) (c : Cell) : (s.add c).2.size = s.size + 1 := by
  simp only [add, size, Array.size_push]

theorem eq_of_getElem?_add {s : Store} {c d : Cell} {a : Nat}
    (h : (s.add c).2.cells[a]? = some d) (ha : s.size ≤ a) : d = c := by
  have hlt := lt_size_of_getElem? h
  rw [size_add] at hlt
  have heq : a = s.size := by omega
  rw [heq, getElem?_add_self, Option.some.injEq] at h
  exact h.symm

/-- A new cell without a parent in the store leaves the chains as they were. -/
theorem parent_of_parent_add {s : Store} {c : Cell} (hp : c.parent.address? = none) {a b : Nat}
    (h : (s.add c).2.parent (.reference a) = .reference b) :
    s.parent (.reference a) = .reference b := by
  by_cases ha : a < s.size
  · rwa [parent_eq_of_getElem? (getElem?_add_lt ha)] at h
  · rcases hd : (s.add c).2.cells[a]? with _ | d
    · rw [parent_reference_of_size_le (Array.getElem?_eq_none_iff.mp hd)] at h
      cases h
    · rw [parent_reference hd, eq_of_getElem?_add hd (Nat.le_of_not_lt ha)] at h
      rw [h] at hp
      cases hp

theorem getElem?_modify_self (s : Store) (a : Nat) (f : Cell → Cell) :
    (s.modify a f).cells[a]? = (s.cells[a]?).map f := by
  simp only [modify, Array.getElem?_modify, if_pos]

theorem getElem?_modify_of_ne (s : Store) {a b : Nat} (f : Cell → Cell) (h : a ≠ b) :
    (s.modify a f).cells[b]? = s.cells[b]? := by
  simp only [modify, Array.getElem?_modify, if_neg h]

theorem size_modify (s : Store) (a : Nat) (f : Cell → Cell) : (s.modify a f).size = s.size := by
  simp only [modify, size, Array.size_modify]

namespace Keeps

variable {m : Nat} {s t u : Store}

theorem refl (m : Nat) (s : Store) : Keeps m s s :=
  ⟨fun _ _ => rfl, fun _ c h => ⟨c, h, .refl c⟩⟩

theorem trans (h : Keeps m s t) (h' : Keeps m t u) : Keeps m s u := by
  refine ⟨fun a ha => (h'.below a ha).trans (h.below a ha), ?_⟩
  intro a c hc
  rcases h.becomes a c hc with ⟨d, hd, hcd⟩
  rcases h'.becomes a d hd with ⟨e, he, hde⟩
  exact ⟨e, he, hcd.trans hde⟩

theorem size_le (h : Keeps m s t) : s.size ≤ t.size := by
  by_contra hlt
  have hin : t.size < s.size := by omega
  have hc : s.cells[t.size]? = some s.cells[t.size] := Array.getElem?_eq_getElem hin
  rcases h.becomes _ _ hc with ⟨d, hd, _⟩
  exact Nat.lt_irrefl _ (lt_size_of_getElem? hd)

theorem lookup_isSome (h : Keeps m s t) {a : Nat} {name : Units}
    (hs : ((s.bindings a).lookup name).isSome = true) :
    ((t.bindings a).lookup name).isSome = true := by
  rcases hc : s.cells[a]? with _ | c
  · rw [bindings, hc] at hs
    exact absurd hs (by simp only [List.lookup_nil, Option.isSome_none, Bool.false_eq_true,
      not_false_eq_true])
  · rcases h.becomes a c hc with ⟨d, hd, hcd⟩
    cases hcd with
    | scope hnames =>
        simp only [bindings, hc, hd] at hs ⊢
        exact hnames name hs
    | object _ _ _ _ _ =>
        rw [bindings, hc] at hs
        exact absurd hs (by simp only [List.lookup_nil, Option.isSome_none, Bool.false_eq_true,
          not_false_eq_true])

theorem le_holder (h : Keeps m s t) {name : Units} {scopes : List Nat}
    (hs : m ≤ s.holder name scopes) : m ≤ t.holder name scopes := by
  induction scopes with
  | nil => exact hs
  | cons a outer ih =>
      simp only [holder, resolve?] at hs ih ⊢
      rcases ht : (t.bindings a).lookup name with _ | y
      · -- A name that is not in a scope now was not there before.
        rcases hx : (s.bindings a).lookup name with _ | x
        · simp only [hx] at hs
          exact ih hs
        · have hsome : ((t.bindings a).lookup name).isSome = true :=
            h.lookup_isSome (by rw [hx]; rfl)
          rw [ht] at hsome
          exact absurd hsome (by simp only [Option.isSome_none, Bool.false_eq_true,
            not_false_eq_true])
      · rcases hx : (s.bindings a).lookup name with _ | x
        · -- The scope has gained the name, so it is not below the mark.
          simp only [Option.map_some, Option.getD_some]
          by_contra hlt
          have hsame : t.bindings a = s.bindings a := by
            simp only [bindings, h.below a (by omega)]
          rw [hsame, hx] at ht
          exact absurd ht (by simp only [reduceCtorEq, not_false_eq_true])
        · simp only [hx] at hs
          exact hs

theorem writable (h : Keeps m s t) {scopes : List Nat} {x : Target}
    (hs : s.Writable m scopes x) : t.Writable m scopes x := by
  cases x with
  | name n => exact h.le_holder hs
  | member => exact hs

theorem add (s : Store) (c : Cell) (hm : m ≤ s.size) : Keeps m s (s.add c).2 := by
  refine ⟨fun a ha => getElem?_add_lt (by omega), ?_⟩
  intro a d hd
  exact ⟨d, by rw [getElem?_add_lt (lt_size_of_getElem? hd), hd], .refl d⟩

theorem modify {a : Nat} {f : Cell → Cell} (ha : m ≤ a)
    (hf : ∀ c, s.cells[a]? = some c → c.Becomes (f c)) : Keeps m s (s.modify a f) := by
  refine ⟨fun b hb => getElem?_modify_of_ne s f (by omega), ?_⟩
  intro b c hc
  by_cases hab : a = b
  · subst hab
    exact ⟨f c, by rw [getElem?_modify_self, hc]; rfl, hf c hc⟩
  · exact ⟨c, by rw [getElem?_modify_of_ne s f hab, hc], .refl c⟩

end Keeps

/-- A scope in front of others changes where a name is only if it holds the name, and
    then it holds it itself. -/
theorem Writable.cons {m : Nat} {s : Store} {scopes : List Nat} {x : Target} {a : Nat}
    (ha : m ≤ a) (hx : s.Writable m scopes x) : s.Writable m (a :: scopes) x := by
  cases x with
  | member => exact hx
  | name n =>
      simp only [Writable, holder, resolve?] at hx ⊢
      split
      · exact ha
      · exact hx

theorem writable_of_bound {m : Nat} {s : Store} {scopes : List Nat} {n : Units} {a : Nat}
    (ha : m ≤ a) (hn : ((s.bindings a).lookup n).isSome = true) :
    s.Writable m (a :: scopes) (.name n) := by
  rcases Option.isSome_iff_exists.mp hn with ⟨x, hx⟩
  simp only [Writable, holder, resolve?, hx, Option.map_some, Option.getD_some]
  exact ha

namespace Sound

variable {m : Nat} {s t : Store}

/-- A sound store of which only what is allowed has come is sound again, if nothing in
    it refers past its end and no circles and no writes below the mark were added. -/
theorem of_keeps (h : s.Sound m) (hk : s.Keeps m t)
    (hclosed : ∀ (a : Nat) (c : Cell), t.cells[a]? = some c → ∀ b ∈ c.addresses, b < t.size)
    (hg : t.Grounded)
    (hnew : ∀ a : Nat, s.size ≤ a → ∀ f scopes self p properties,
      t.cells[a]? = some (.object (.closure f scopes self) p properties) →
        ∀ x ∈ f.targets, t.Writable m scopes x) : t.Sound m where
  mark_le := Nat.le_trans h.mark_le hk.size_le
  closed := hclosed
  grounded := hg
  confined := by
    intro a f scopes self p properties ha x hx
    by_cases hlt : a < s.size
    · have hc : s.cells[a]? = some s.cells[a] := Array.getElem?_eq_getElem hlt
      rcases hk.becomes a _ hc with ⟨d, hd, hcd⟩
      rw [ha, Option.some.injEq] at hd
      rw [← hd] at hcd
      -- A function that was there before has the code and the scopes it had.
      generalize s.cells[a] = c at hc hcd
      cases hcd with
      | object hshape q _ others _ => cases hshape with
        | closure g name _ _ =>
            exact hk.writable (h.confined a g scopes self q others hc x hx)
    · exact hnew a (by omega) f scopes self p properties ha x hx
  globalObject := by
    rcases h.globalObject with ⟨p, properties, hc⟩
    rcases hk.becomes _ _ hc with ⟨d, hd, hcd⟩
    cases hcd with
    | object hshape _ q _ others => cases hshape with
      | plain => exact ⟨q, others, hd⟩
  scriptScope := by
    rcases h.scriptScope with ⟨vs, hc⟩
    rcases hk.becomes _ _ hc with ⟨d, hd, hcd⟩
    cases hcd with
    | scope _ => exact ⟨_, hd⟩

/-- A sound store with one more cell, which is no function of its own that writes below
    the mark. -/
theorem add (h : s.Sound m) {c : Cell} (hc : ∀ b ∈ c.addresses, b < s.size)
    (hp : c.parent.address? = none)
    (hf : ∀ f scopes self p properties, c = .object (.closure f scopes self) p properties →
      ∀ x ∈ f.targets, s.Writable m scopes x) : (s.add c).2.Sound m := by
  have hk : s.Keeps m (s.add c).2 := .add s c h.mark_le
  refine h.of_keeps hk ?_ ?_ ?_
  · intro a d hd b hb
    rw [size_add]
    by_cases ha : a < s.size
    · rw [getElem?_add_lt ha] at hd
      exact Nat.lt_succ_of_lt (h.closed a d hd b hb)
    · rw [eq_of_getElem?_add hd (Nat.le_of_not_lt ha)] at hb
      exact Nat.lt_succ_of_lt (hc b hb)
  · exact h.grounded.of_parent fun _ _ hab => parent_of_parent_add hp hab
  · intro a ha f scopes self p properties hcell x hx
    have heq := eq_of_getElem?_add hcell ha
    exact hk.writable (hf f scopes self p properties heq.symm x hx)

/-- A sound store with one cell changed as is allowed. -/
theorem modify (h : s.Sound m) {a : Nat} {f : Cell → Cell} (ha : m ≤ a)
    (hf : ∀ c, s.cells[a]? = some c → c.Becomes (f c) ∧ ∀ b ∈ (f c).addresses, b < s.size)
    (hg : (s.modify a f).Grounded) : (s.modify a f).Sound m := by
  refine h.of_keeps (.modify ha fun c hc => (hf c hc).1) ?_ hg ?_
  · intro b d hd x hx
    rw [size_modify]
    by_cases hab : a = b
    · subst hab
      rw [getElem?_modify_self] at hd
      rcases Option.map_eq_some_iff.mp hd with ⟨c, hc, hcd⟩
      exact (hf c hc).2 x (hcd ▸ hx)
    · rw [getElem?_modify_of_ne s f hab] at hd
      exact h.closed b d hd x hx
  · intro b hb g scopes self p properties hcell
    have hlt := lt_size_of_getElem? hcell
    rw [size_modify] at hlt
    omega

/-- Whatever a cell refers to is in the store, so whatever is read from it is. -/
theorem below_property (h : s.Sound m) {a : Nat} {shape : Shape} {p v : Value} {name : Units}
    {properties : List (Units × Value)} (ha : s.cells[a]? = some (.object shape p properties))
    (hv : properties.lookup name = some v) : v.Below s.size := by
  intro b hb
  exact h.closed a _ ha b (mem_addresses_of_property (Entries.mem_of_lookup hv) hb)

theorem below_own? (h : s.Sound m) {v w : Value} {name : Units} (hw : s.own? v name = some w) :
    w.Below s.size := by
  -- The value of a property is in the cell, or it has no address at all.
  cases v with
  | reference a =>
      simp only [own?] at hw
      rcases Option.bind_eq_some_iff.mp hw with ⟨c, hc, hown⟩
      cases c with
      | scope vs => exact absurd hown (by simp only [Cell.own?, reduceCtorEq, not_false_eq_true])
      | object shape p properties =>
          cases shape with
          | plain => exact h.below_property hc hown
          | array n =>
              simp only [Cell.own?] at hown
              split at hown
              · exact Value.below_of_some_eq hown rfl
              · exact h.below_property hc hown
          | closure f scopes self =>
              simp only [Cell.own?] at hown
              split at hown
              · exact Value.below_of_some_eq hown rfl
              · split at hown
                · exact Value.below_of_some_eq hown rfl
                · exact h.below_property hc hown
  | text u =>
      simp only [own?] at hw
      split at hw
      · exact Value.below_of_some_eq hw rfl
      · rcases Option.bind_eq_some_iff.mp hw with ⟨i, _, hi⟩
        rcases Option.map_eq_some_iff.mp hi with ⟨unit, _, hu⟩
        exact Value.below_of_no_address (by rw [← hu]; rfl)
  | method family n =>
      simp only [own?] at hw
      split at hw
      · exact Value.below_of_some_eq hw rfl
      · exact absurd hw (by simp only [reduceCtorEq, not_false_eq_true])
  | common f =>
      simp only [own?, Family.method?] at hw
      split at hw
      · exact Value.below_of_some_eq hw rfl
      · exact absurd hw (by simp only [reduceCtorEq, not_false_eq_true])
  | _ => exact absurd hw (by simp only [own?, reduceCtorEq, not_false_eq_true])

theorem below_parent (h : s.Sound m) (v : Value) : (s.parent v).Below s.size := by
  cases v with
  | reference a =>
      rcases hc : s.cells[a]? with _ | c
      · exact Value.below_of_no_address (by simp only [parent, hc, Value.address?])
      · rw [parent_reference hc]
        intro b hb
        refine h.closed a c hc b ?_
        cases c with
        | scope vs => exact absurd hb (by simp only [Cell.parent, Value.address?, reduceCtorEq,
            not_false_eq_true])
        | object shape p properties =>
            exact mem_addresses_of_parent hb
  | common f => cases f <;> exact Value.below_of_no_address rfl
  | _ => exact Value.below_of_no_address rfl

theorem below_lookUp (h : s.Sound m) {name : Units} {w : Value} : ∀ (n : Nat) (v : Value),
    s.lookUp name n v = some w → w.Below s.size := by
  intro n
  induction n with
  | zero => intro v hw; exact absurd hw (by simp only [lookUp, reduceCtorEq, not_false_eq_true])
  | succ n ih =>
      intro v hw
      simp only [lookUp] at hw
      split at hw
      · next found hown =>
        rw [← Option.some.inj hw]
        exact h.below_own? hown
      · split at hw
        · exact absurd hw (by simp only [reduceCtorEq, not_false_eq_true])
        · exact ih _ hw

theorem below_property? (h : s.Sound m) {v w : Value} {name : Units}
    (hw : s.property? v name = some w) : w.Below s.size := by
  simp only [property?] at hw
  split at hw
  · next found hfound =>
    rw [← Option.some.inj hw]
    exact h.below_lookUp _ v hfound
  · split at hw
    · rw [← Option.some.inj hw]
      exact h.below_parent v
    · exact absurd hw (by simp only [reduceCtorEq, not_false_eq_true])

theorem below_global? (h : s.Sound m) {w : Value} {name : Units}
    (hw : s.global? name = some w) : w.Below s.size := by
  simp only [global?, Option.or_eq_some_iff] at hw
  rcases hw with hw | ⟨_, hw⟩
  · have hmem := Entries.mem_of_lookup hw
    simp only [constants, List.mem_cons, Prod.mk.injEq, List.not_mem_nil, or_false] at hmem
    rcases hmem with ⟨_, hv⟩ | ⟨_, hv⟩ | ⟨_, hv⟩ | ⟨_, hv⟩ <;> rw [hv]
    · exact Value.below_of_no_address rfl
    · exact Value.below_of_no_address rfl
    · exact Value.below_of_no_address rfl
    · rcases h.globalObject with ⟨_, _, hc⟩
      exact Value.below_reference (lt_size_of_getElem? hc)
  · exact h.below_property? hw

/-- A variable is found in a scope of the store, and its value is in the store. -/
theorem below_resolve? (h : s.Sound m) {name : Units} {a : Nat} {x : Variable}
    {scopes : List Nat} (hx : s.resolve? name scopes = some (a, x)) :
    a ∈ scopes ∧ (∃ vs, s.cells[a]? = some (.scope vs) ∧ vs.lookup name = some x) ∧
      ∀ v, x.value = some v → v.Below s.size := by
  induction scopes with
  | nil => exact absurd hx (by simp only [resolve?, reduceCtorEq, not_false_eq_true])
  | cons b outer ih =>
      simp only [resolve?] at hx
      -- The innermost scope that has the name counts.
      split at hx
      · next y hy =>
        rw [Option.some.injEq, Prod.mk.injEq] at hx
        rcases hx with ⟨hba, hyx⟩
        subst hba hyx
        simp only [bindings] at hy
        split at hy
        · next vs hc =>
          refine ⟨List.mem_cons_self, ⟨vs, hc, hy⟩, fun v hv c hvc => ?_⟩
          refine h.closed b _ hc c (List.mem_filterMap.mpr ⟨_, Entries.mem_of_lookup hy, ?_⟩)
          simp only [hv, Option.bind_some, hvc]
        · exact absurd hy (by simp only [List.lookup_nil, reduceCtorEq, not_false_eq_true])
      · rcases ih hx with ⟨hmem, hrest⟩
        exact ⟨List.mem_cons_of_mem _ hmem, hrest⟩

theorem below_closure? (h : s.Sound m) {v self : Value} {f : Function} {scopes : List Nat}
    (hv : s.closure? v = some (f, scopes, self)) :
    (∀ a ∈ scopes, a < s.size) ∧ self.Below s.size ∧
      ∀ x ∈ f.targets, s.Writable m scopes x := by
  cases v with
  | reference a =>
      simp only [closure?] at hv
      split at hv
      · next g outer captured p properties hc =>
        simp only [Option.some.injEq, Prod.mk.injEq] at hv
        rcases hv with ⟨hg, houter, hself⟩
        subst hg houter hself
        have hin := h.closed a _ hc
        simp only [Cell.addresses, List.mem_append, Option.mem_toList] at hin
        exact ⟨fun b hb => hin b (Or.inl (Or.inl hb)), fun b hb => hin b (Or.inl (Or.inr hb)),
          h.confined a g outer captured p properties hc⟩
      · exact absurd hv (by simp only [reduceCtorEq, not_false_eq_true])
  | _ => exact absurd hv (by simp only [closure?, reduceCtorEq, not_false_eq_true])

end Sound

/-- A change that leaves parents alone makes no circle. -/
theorem Grounded.modify {s : Store} (hg : s.Grounded) {a : Nat} {f : Cell → Cell}
    (hf : ∀ c, s.cells[a]? = some c → (f c).parent = c.parent) : (s.modify a f).Grounded := by
  refine hg.of_parent fun b p hb => ?_
  by_cases hab : a = b
  · subst hab
    rcases hc : s.cells[a]? with _ | c
    · rw [← hb]
      simp only [parent, getElem?_modify_self, hc, Option.map_none]
    · have hm : (s.modify a f).cells[a]? = some (f c) := by rw [getElem?_modify_self, hc]; rfl
      rw [parent_reference hm, hf c hc] at hb
      rw [parent_reference hc, hb]
  · rw [← hb]
    exact (parent_eq_of_getElem? (getElem?_modify_of_ne s f hab)).symm

end Store

end WebScript

end MapStyling
