import MapStyling.Proofs.Agreement
import MapStyling.Proofs.WebLanguage.Operations

/-!
# What Operations Lead To

Contexts with a past.

What a language does in a context can depend on all that was done before, so laws of a
language are about the contexts that operations lead to, with the values that came of
these operations. A value that came of a source is known by the time at which the source
was evaluated: nothing else has to be said of it.

Two things are asked of several languages here. Objects that nobody refers to are not
seen, and a variable that is set twice is as if it had been set once.

## Main definitions

* `WebLanguage.Reached`: Contexts and values that operations lead to.
* `WebLanguage.Evaluated`: Among them, those with a value that a source came to.
* `WebLanguage.Common`: Contexts and values that a language comes to from the start.
* `WebLanguage.Unseen`, `WebLanguage.Overwritten`: Laws of a language.

## Theorems

* `Bisimulation.diagonal`: What operations keep is a relation of which they show nothing.
-/

namespace MapStyling

namespace WebLanguage

variable {L : WebLanguage} {allowed : Operation → Prop} {start h : Holding L}

/-- Contexts and values that operations lead to. -/
inductive Reached (allowed : Operation → Prop) (start : Holding L) : Holding L → Prop
  | refl : Reached allowed start start
  | perform {h : Holding L} (o : Operation) (ho : allowed o) (hh : Reached allowed start h) :
      Reached allowed start (o.perform h).2

/-- More operations may be allowed. -/
theorem Reached.mono {others : Operation → Prop} (hallowed : ∀ o, allowed o → others o)
    (hh : Reached allowed start h) : Reached others start h := by
  induction hh with
  | refl => exact .refl
  | perform o ho _ ih => exact ih.perform o (hallowed o ho)

/-- What was held before stays in front of what comes of it. -/
theorem Reached.prefix_values (hh : Reached allowed start h) : start.values <+: h.values := by
  induction hh with
  | refl => exact List.prefix_rfl
  | perform o _ _ ih => exact ih.trans (List.prefix_append _ _)

/-- What operations lead to on one side of a relation they lead to on the other. -/
theorem Reached.exists_related {A : Operation → Prop} {T : Holding L → Holding L → Prop}
    (hT : Bisimulation A T) (hA : ∀ o, allowed o → A o) {start' h' : Holding L}
    (hstart : T start start') (hh' : Reached allowed start' h') :
    ∃ h, Reached allowed start h ∧ T h h' := by
  induction hh' with
  | refl => exact ⟨start, .refl, hstart⟩
  | perform o ho _ ih =>
      rcases ih with ⟨h, hh, hrelated⟩
      exact ⟨_, hh.perform o ho, (hT.step _ _ hrelated o (hA o ho)).2⟩

/-- Contexts and values that operations lead to, where a source came to the value at a
    position. -/
inductive Evaluated (allowed : Operation → Prop) (start : Holding L) (source : String) :
    Holding L → Nat → Prop
  | evaluate {h : Holding L} (hs : allowed (.evaluate source)) (hh : Reached allowed start h)
      {v : L.Value} (hv : ((L.evaluate source).run h.context).1 = .ok v) :
      Evaluated allowed start source ((Operation.evaluate source).perform h).2 h.values.length
  | perform {h : Holding L} {i : Nat} (o : Operation) (ho : allowed o)
      (hh : Evaluated allowed start source h i) : Evaluated allowed start source (o.perform h).2 i

theorem Evaluated.reached {source : String} {i : Nat} (hi : Evaluated allowed start source h i) :
    Reached allowed start h := by
  induction hi with
  | evaluate hs hh hv => exact hh.perform _ hs
  | perform o ho _ ih => exact ih.perform o ho

/-- What the allowed operations keep, as a relation of a context to itself. -/
theorem Bisimulation.diagonal {P : Holding L → Prop}
    (hP : ∀ h o, allowed o → P h → P (Operation.perform o h).2) :
    Bisimulation allowed (Diagonal P) where
  length := fun h h' hh' => by rw [hh'.1]
  step := fun h h' hh' o ho => by
    rw [hh'.1]
    exact ⟨rfl, rfl, hP h o ho hh'.2⟩

/-- A value that is held stays at its position. -/
theorem getElem?_perform (o : Operation) {i : Nat} {v : L.Value} (hi : h.values[i]? = some v) :
    (o.perform h).2.values[i]? = some v :=
  (List.getElem?_append_left (List.getElem?_eq_some_iff.mp hi).1).trans hi

/-- Contexts that a language comes to by some operations, with values from them. -/
abbrev Common (L : WebLanguage) (allowed : Operation → Prop) : Holding L → Prop :=
  Reached allowed ⟨L.initial, []⟩

/-- What is made and filled, of none but some sources, is not seen by anybody who has no
    reference to it. -/
def Unseen (L : WebLanguage) (allowed : Operation → Prop) (S made : String → Prop) : Prop :=
  ∀ h, L.Common allowed h → ∀ m, Reached (Operation.Makes made) ⟨h.context, []⟩ m →
    Alike S h ⟨m.context, h.values⟩

/-- A variable that is set twice is as if it had been set once. -/
def Overwritten (L : WebLanguage) (allowed : Operation → Prop) (S : String → Prop)
    (name : String) : Prop :=
  ∀ h, L.Common allowed h → ∀ v ∈ h.values, ∀ w ∈ h.values,
    Alike S ⟨((L.setVariable name w).run h.context).2, h.values⟩
      ⟨((L.setVariable name w).run ((L.setVariable name v).run h.context).2).2, h.values⟩

end WebLanguage

end MapStyling
