import MapStyling.Proofs.WebScript.Tied

/-!
# Tied Conversions

Conversions are tied if the way of calling functions is.

Values that are no objects have no addresses, so their numbers and texts are
the same on both sides.

## Main definitions

* `Caller.Steady`: A way of calling that ties its runs.

## Theorems

* `Steady.toPrimitive`, `Steady.toNumber`, `Steady.toText`: Conversions.
* `Steady.compute`, `Steady.computeUnary`: Operators.
* `Steady.callMethod`: Inherited methods.
-/

namespace MapStyling

namespace WebScript

/-- A way of calling whose runs on the same arguments are tied. -/
def Caller.Steady (m : Nat) (ρ : Nat → Nat) (call : Caller) : Prop :=
  ∀ {s t : Store}, Store.Twin everywhere m ρ s t → ∀ (f : Value) {self : Value}
    {arguments : List Value}, self.Below s.size → (∀ v ∈ arguments, v.Below s.size) →
    Tied m ρ (Value.Paired ρ) (call f self arguments)
      (call (f.moved ρ) (self.moved ρ) (arguments.map (Value.moved ρ))) s t

/-- A value that is no object on both sides. -/
def Value.Plain (_ : Store) (v w : Value) : Prop := w = v ∧ v.isObject = false

theorem Value.address?_of_not_isObject {v : Value} (h : v.isObject = false) :
    v.address? = none := by
  cases v <;> first | rfl | exact absurd h (by simp only [Value.isObject, Bool.true_eq_false,
    not_false_eq_true])

theorem address?_primitiveSum (a b : Value) : (primitiveSum a b).address? = none := by
  unfold primitiveSum
  split <;> rfl

theorem primitiveText_moved (ρ : Nat → Nat) (v : Value) :
    primitiveText (v.moved ρ) = primitiveText v := by
  cases v <;> rfl

/-- Arguments that are the same, with one of them taken out. -/
theorem head?_getD_moved (ρ : Nat → Nat) (arguments : List Value) :
    (arguments.map (Value.moved ρ)).head?.getD .undefined
      = (arguments.head?.getD .undefined).moved ρ := by
  cases arguments <;> rfl

namespace Caller.Steady

variable {m : Nat} {ρ : Nat → Nat} {call : Caller} {s t : Store}

theorem firstPrimitive (hc : call.Steady m ρ) {v : Value} : ∀ (names : List Units) {s t : Store},
    Store.Twin everywhere m ρ s t → v.Below s.size →
    Tied m ρ Value.Plain (WebScript.firstPrimitive call v names)
      (WebScript.firstPrimitive call (v.moved ρ) names) s t := by
  intro names
  induction names with
  | nil =>
      intro s t h _
      exact .failure h
  | cons name others ih =>
      intro s t h hv
      simp only [WebScript.firstPrimitive]
      refine (Tied.property h v name).bind fun f g s' t' h' hk hfg => ?_
      rw [hfg.1]
      refine .get_bind ?_
      rw [h'.alike.isCallable f.in_everywhere]
      have hv' := hv.mono hk.size_le
      -- A method that is no function, or hands back an object, leads on to the next one.
      split
      · refine (hc h' f hv' fun _ hmem => absurd hmem List.not_mem_nil).bind
          fun a b s'' t'' h'' hk' hab => ?_
        rw [hab.1, Value.isObject_moved]
        split
        · next hobj =>
          have hplain : a.isObject = false := by simpa only [Bool.not_eq_true'] using hobj
          exact .pure h'' ⟨Value.moved_of_no_address
            (Value.address?_of_not_isObject hplain), hplain⟩
        · exact ih h'' (hv'.mono hk'.size_le)
      · exact ih h' hv'

theorem toPrimitive (hc : call.Steady m ρ) (wanted : Wanted) (h : Store.Twin everywhere m ρ s t)
    {v : Value} (hv : v.Below s.size) :
    Tied m ρ Value.Plain (WebScript.toPrimitive call wanted v)
      (WebScript.toPrimitive call wanted (v.moved ρ)) s t := by
  unfold WebScript.toPrimitive
  rw [Value.isObject_moved]
  by_cases hobj : v.isObject
  · rw [if_pos hobj, if_pos hobj]
    exact hc.firstPrimitive _ h hv
  · rw [if_neg hobj, if_neg hobj]
    have hplain : v.isObject = false := by simpa only [Bool.not_eq_true] using hobj
    exact .pure h ⟨Value.moved_of_no_address (Value.address?_of_not_isObject hplain), hplain⟩

theorem toNumber (hc : call.Steady m ρ) (h : Store.Twin everywhere m ρ s t) {v : Value}
    (hv : v.Below s.size) :
    Tied m ρ Same (WebScript.toNumber call v) (WebScript.toNumber call (v.moved ρ)) s t := by
  unfold WebScript.toNumber
  refine (hc.toPrimitive .number h hv).bind fun p q s' t' h' _ hpq => ?_
  rw [hpq.1]
  exact .pure h' rfl

theorem toText (hc : call.Steady m ρ) (h : Store.Twin everywhere m ρ s t) {v : Value}
    (hv : v.Below s.size) :
    Tied m ρ Same (WebScript.toText call v) (WebScript.toText call (v.moved ρ)) s t := by
  unfold WebScript.toText
  refine (hc.toPrimitive .text h hv).bind fun p q s' t' h' _ hpq => ?_
  rw [hpq.1]
  exact .pure h' rfl

theorem equal (hc : call.Steady m ρ) (h : Store.Twin everywhere m ρ s t) {a b : Value}
    (ha : a.Below s.size) (hb : b.Below s.size) :
    Tied m ρ Same (WebScript.equal call a b)
      (WebScript.equal call (a.moved ρ) (b.moved ρ)) s t := by
  unfold WebScript.equal
  have heq : (a.moved ρ = b.moved ρ) ↔ a = b :=
    (Value.moved_injective h.alike.injective).eq_iff
  simp only [Value.isObject_moved, Value.isNothing_moved, heq]
  split
  · exact .pure h rfl
  · split
    · exact .pure h rfl
    · refine (hc.toPrimitive .anything h ha).bind fun p q s' t' h' hk hpq => ?_
      refine (hc.toPrimitive .anything h' (hb.mono hk.size_le)).bind
        fun p' q' s'' t'' h'' _ hpq' => ?_
      rw [hpq.1, hpq'.1]
      exact .pure h'' rfl

theorem compare (hc : call.Steady m ρ) (f : Value → Value → Bool)
    (h : Store.Twin everywhere m ρ s t) {a b : Value} (ha : a.Below s.size) (hb : b.Below s.size) :
    Tied m ρ (Value.Paired ρ) (WebScript.compare call f a b)
      (WebScript.compare call f (a.moved ρ) (b.moved ρ)) s t := by
  unfold WebScript.compare
  refine (hc.toPrimitive .number h ha).bind fun p q s' t' h' hk hpq => ?_
  refine (hc.toPrimitive .number h' (hb.mono hk.size_le)).bind fun p' q' s'' t'' h'' _ hpq' => ?_
  rw [hpq.1, hpq'.1]
  exact .pure_value h'' rfl

theorem arithmetic (hc : call.Steady m ρ) (f : Float → Float → Float)
    (h : Store.Twin everywhere m ρ s t) {a b : Value} (ha : a.Below s.size) (hb : b.Below s.size) :
    Tied m ρ (Value.Paired ρ) (WebScript.arithmetic call f a b)
      (WebScript.arithmetic call f (a.moved ρ) (b.moved ρ)) s t := by
  unfold WebScript.arithmetic
  refine (hc.toNumber h ha).bind fun x x' s' t' h' hk hx => ?_
  refine (hc.toNumber h' (hb.mono hk.size_le)).bind fun y y' s'' t'' h'' _ hy => ?_
  rw [hx, hy]
  exact .pure_value h'' rfl

theorem same_moved (hρ : Function.Injective ρ) (a b : Value) :
    WebScript.same (a.moved ρ) (b.moved ρ) = WebScript.same a b := by
  have heq : (a.moved ρ = b.moved ρ) ↔ a = b := (Value.moved_injective hρ).eq_iff
  cases a <;> cases b <;> first | rfl | exact decide_eq_decide.mpr heq

theorem compute (hc : call.Steady m ρ) (op : BinaryOperator) (h : Store.Twin everywhere m ρ s t)
    {a b : Value} (ha : a.Below s.size) (hb : b.Below s.size) :
    Tied m ρ (Value.Paired ρ) (WebScript.compute call op a b)
      (WebScript.compute call op (a.moved ρ) (b.moved ρ)) s t := by
  unfold WebScript.compute
  cases op with
  | add =>
      -- The right operand is converted in the stores that the left one has left behind.
      refine (hc.toPrimitive .anything h ha).bind fun p q s' t' h' hk hpq => ?_
      refine (hc.toPrimitive .anything h' (hb.mono hk.size_le)).bind
        fun p' q' s'' t'' h'' _ hpq' => ?_
      rw [hpq.1, hpq'.1]
      exact .pure_value h'' (address?_primitiveSum p p')
  | subtract | multiply | divide | remainder => exact hc.arithmetic _ h ha hb
  | equal | unequal =>
      refine (hc.equal h ha hb).bind fun x y s' t' h' _ hxy => ?_
      rw [hxy]
      exact .pure_value h' rfl
  | same | different =>
      simp only [same_moved h.alike.injective]
      exact .pure_value h rfl
  | less | lessOrEqual | greater | greaterOrEqual => exact hc.compare _ h ha hb

theorem computeUnary (hc : call.Steady m ρ) (op : UnaryOperator)
    (h : Store.Twin everywhere m ρ s t) {v : Value} (hv : v.Below s.size) :
    Tied m ρ (Value.Paired ρ) (WebScript.computeUnary call op v)
      (WebScript.computeUnary call op (v.moved ρ)) s t := by
  unfold WebScript.computeUnary
  cases op with
  | plus | minus =>
      refine (hc.toNumber h hv).bind fun x y s' t' h' _ hxy => ?_
      rw [hxy]
      exact .pure_value h' rfl
  | not =>
      simp only [Value.truth_moved]
      exact .pure_value h rfl
  | typeof =>
      refine .get_bind ?_
      rw [typeOf_moved h v]
      exact .pure_value h rfl

theorem elementTexts (hc : call.Steady m ρ) {v : Value} : ∀ (n i : Nat) {s t : Store},
    Store.Twin everywhere m ρ s t → v.Below s.size →
    Tied m ρ Same (WebScript.elementTexts call v i n)
      (WebScript.elementTexts call (v.moved ρ) i n) s t := by
  intro n
  induction n with
  | zero =>
      intro i s t h _
      exact .pure h rfl
  | succ n ih =>
      intro i s t h hv
      simp only [WebScript.elementTexts]
      refine (Tied.property h v (indexName i)).bind fun x y s' t' h' hk hxy => ?_
      rw [hxy.1, Value.isNothing_moved]
      have hv' := hv.mono hk.size_le
      -- The elements behind are read alike whether or not this one has a text.
      have hrest : ∀ {u : Units} {s'' t'' : Store}, Store.Twin everywhere m ρ s'' t'' →
          s'.Keeps m s'' → Tied m ρ Same
            (do return u :: (← WebScript.elementTexts call v (i + 1) n))
            (do return u :: (← WebScript.elementTexts call (v.moved ρ) (i + 1) n)) s'' t'' := by
        intro u s'' t'' h'' hk'
        refine (ih (i + 1) h'' (hv'.mono hk'.size_le)).bind fun us us' s₃ t₃ h₃ _ hus => ?_
        rw [hus]
        exact .pure h₃ rfl
      by_cases hnothing : x.isNothing
      · simp only [hnothing, if_true]
        exact (Tied.pure (A := Same) h' rfl).bind fun u u' s'' t'' h'' hk' hu => by
          rw [hu]
          exact hrest h'' hk'
      · simp only [hnothing]
        exact (hc.toText h' hxy.2).bind fun u u' s'' t'' h'' hk' hu => by
          rw [hu]
          exact hrest h'' hk'

theorem join (hc : call.Steady m ρ) (h : Store.Twin everywhere m ρ s t) {v : Value}
    (hv : v.Below s.size) (separator : Units) :
    Tied m ρ (Value.Paired ρ) (WebScript.join call v separator)
      (WebScript.join call (v.moved ρ) separator) s t := by
  unfold WebScript.join
  refine .get_bind ?_
  simp only [h.alike.arrayLength? v.in_everywhere]
  refine (hc.elementTexts _ 0 h hv).bind fun us us' s' t' h' _ hus => ?_
  rw [hus]
  exact .pure_value h' rfl

theorem objectText_moved (h : Store.Twin everywhere m ρ s t) (v : Value) :
    WebScript.objectText t (v.moved ρ) = WebScript.objectText s v := by
  have hc := h.alike.isCallable v.in_everywhere
  have hl := h.alike.arrayLength? v.in_everywhere
  cases v with
  | reference a =>
      rw [Value.moved_reference] at hc hl ⊢
      simp only [WebScript.objectText, hc, hl]
  | _ => rfl

theorem functionText (h : Store.Twin everywhere m ρ s t) (v : Value) :
    Tied m ρ (Value.Paired ρ) (WebScript.functionText s v)
      (WebScript.functionText t (v.moved ρ)) s t := by
  have hc := h.alike.closure? v.in_everywhere
  cases v with
  | reference a =>
      rw [Value.moved_reference] at hc ⊢
      simp only [WebScript.functionText, hc]
      rcases s.closure? (.reference a) with _ | c
      · exact .failure h
      · exact .pure_value h rfl
  | method family n => exact .pure_value h rfl
  | _ => exact .failure h

theorem callMethod (hc : call.Steady m ρ) (h : Store.Twin everywhere m ρ s t) (family : Family)
    (name : Units) {self : Value} {arguments : List Value} (hself : self.Below s.size)
    (hargs : ∀ v ∈ arguments, v.Below s.size) :
    Tied m ρ (Value.Paired ρ) (WebScript.callMethod call family name self arguments)
      (WebScript.callMethod call family name (self.moved ρ) (arguments.map (Value.moved ρ)))
      s t := by
  unfold WebScript.callMethod
  refine .get_bind ?_
  rw [head?_getD_moved]
  split
  · rw [objectText_moved h]
    exact .pure_value h rfl
  · exact .pure h ⟨rfl, hself⟩
  · exact functionText h self
  · -- The texts of the elements, after that of what stands between them.
    have hsep : (arguments.head?.getD .undefined).Below s.size := by
      cases arguments with
      | nil => exact Value.below_of_no_address rfl
      | cons v others => exact hargs v List.mem_cons_self
    generalize arguments.head?.getD .undefined = separator at hsep ⊢
    have hjoin : Tied m ρ (Value.Paired ρ)
        (do WebScript.join call self (← WebScript.toText call separator))
        (do WebScript.join call (self.moved ρ) (← WebScript.toText call (separator.moved ρ)))
        s t := by
      refine (hc.toText h hsep).bind fun u u' s' t' h' hk hu => ?_
      rw [hu]
      exact hc.join h' (hself.mono hk.size_le) u
    cases separator with
    | undefined => exact hc.join h hself _
    | _ => exact hjoin
  · refine (Tied.property h self _).bind fun f g s' t' h' hk hfg => ?_
    rw [hfg.1, h.alike.isCallable f.in_everywhere, objectText_moved h]
    split
    · exact hc h' f (hself.mono hk.size_le) fun _ hmem => absurd hmem List.not_mem_nil
    · exact .pure_value h' rfl
  · rw [primitiveText_moved]
    exact .pure_value h rfl
  · rw [primitiveText_moved]
    exact .pure_value h rfl
  · rw [primitiveText_moved]
    exact .pure_value h rfl
  · exact .pure h ⟨rfl, hself⟩
  · exact .pure h ⟨rfl, hself⟩
  · exact .pure h ⟨rfl, hself⟩
  · exact .failure h

end Caller.Steady

end WebScript

end MapStyling
