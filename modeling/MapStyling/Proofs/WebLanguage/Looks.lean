import MapStyling.Proofs.Views
import MapStyling.Proofs.WebLanguage.Settings
import Mathlib.Data.List.Forall2

/-!
# Looks of Shared Values

Values that look the same although they live in different contexts.

An object of a language of web pages is where it is, so two objects are never compared:
what they look like is, and what is in them, and what is in that. Values look the same if
there is a relation between them that goes over to what is in them. Objects can hold each
other, so this is not a matter of depth.

What is asked of a language is that an engine can rely on what it makes. The same
operations make what looks the same wherever they are performed, whatever there was
before. What is made leaves a variable as it was, and a variable that is set holds what
was put into it.

## Main definitions

* `Look.Rel`: Looks with what is in them in a relation.
* `WebLanguage.LooksAlike`: Values that look the same all the way down.
* `WebLanguage.LookLaws`: What is asked of a language.

## Theorems

* `LooksAlike.symm`, `LooksAlike.trans`: To look the same is symmetric and transitive.
-/

namespace MapStyling

/-- Two looks, with what is in the one and in the other in a relation. -/
inductive Look.Rel {ν ν' φ : Type} (R : ν → ν' → Prop) : Look ν φ → Look ν' φ → Prop
  | null : Rel R .null .null
  | truth (b : Bool) : Rel R (.truth b) (.truth b)
  | number (v : Float) : Rel R (.number v) (.number v)
  | text (s : String) : Rel R (.text s) (.text s)
  | function (f : φ) : Rel R (.function f) (.function f)
  | array {items : List ν} {items' : List ν'} (h : List.Forall₂ R items items') :
      Rel R (.array items) (.array items')
  | object {fields : String → Option ν} {fields' : String → Option ν'}
      (h : ∀ name, Option.Rel R (fields name) (fields' name)) :
      Rel R (.object fields) (.object fields')
  | other : Rel R .other .other

section

variable {α β γ : Type} {R : α → β → Prop} {R' : β → γ → Prop} {R'' : α → γ → Prop}

theorem optionRel_symm {Q : β → α → Prop} (hQ : ∀ x y, R x y → Q y x) {a : Option α} {b : Option β}
    (h : Option.Rel R a b) : Option.Rel Q b a := by
  cases h with
  | none => exact .none
  | some hxy => exact .some (hQ _ _ hxy)

theorem optionRel_trans (hR : ∀ x y z, R x y → R' y z → R'' x z) {a : Option α} {b : Option β}
    {c : Option γ} (h : Option.Rel R a b) (h' : Option.Rel R' b c) : Option.Rel R'' a c := by
  cases h with
  | none =>
      cases h'
      exact .none
  | some hxy =>
      cases h' with
      | some hyz => exact .some (hR _ _ _ hxy hyz)

theorem forall₂_trans (hR : ∀ x y z, R x y → R' y z → R'' x z) {l : List α} {l' : List β}
    (h : List.Forall₂ R l l') : ∀ {l'' : List γ}, List.Forall₂ R' l' l'' →
      List.Forall₂ R'' l l'' := by
  induction h with
  | nil =>
      intro l'' h'
      cases h'
      exact .nil
  | cons hxy _ ih =>
      intro l'' h'
      cases h' with
      | cons hyz hrest => exact .cons (hR _ _ _ hxy hyz) (ih hrest)

end

namespace Look.Rel

variable {ν ν' ν'' φ : Type} {R : ν → ν' → Prop} {R' : ν' → ν'' → Prop} {R'' : ν → ν'' → Prop}

/-- A look is in a relation to itself if all is that is in it. -/
theorem refl {R : ν → ν → Prop} {l : Look ν φ} (hR : ∀ v, l.Holds v → R v v) : Rel R l l := by
  cases l with
  | null => exact .null
  | truth b => exact .truth b
  | number v => exact .number v
  | text s => exact .text s
  | function f => exact .function f
  | array items => exact .array (List.forall₂_same.mpr hR)
  | object fields =>
      refine .object fun name => ?_
      rcases hfield : fields name with _ | v
      · exact .none
      · exact .some (hR v ⟨name, hfield⟩)
  | other => exact .other

theorem flip {l : Look ν φ} {l' : Look ν' φ} (h : Rel R l l') : Rel (fun w v => R v w) l' l := by
  cases h with
  | null => exact .null
  | truth b => exact .truth b
  | number v => exact .number v
  | text s => exact .text s
  | function f => exact .function f
  | array h => exact .array h.flip
  | object h => exact .object fun name => optionRel_symm (fun _ _ hw => hw) (h name)
  | other => exact .other

theorem trans (hR : ∀ u v w, R u v → R' v w → R'' u w) {l : Look ν φ} {l' : Look ν' φ}
    {l'' : Look ν'' φ} (h : Rel R l l') (h' : Rel R' l' l'') : Rel R'' l l'' := by
  -- Looks in a relation are of one kind, so the second pair is of the kind of the first.
  cases h <;> cases h'
  case null => exact .null
  case truth b => exact .truth b
  case number v => exact .number v
  case text s => exact .text s
  case function f => exact .function f
  case array h _ h' => exact .array (forall₂_trans hR h h')
  case object h _ h' => exact .object fun name => optionRel_trans hR (h name) (h' name)
  case other => exact .other

end Look.Rel

namespace WebLanguage

variable {L : WebLanguage} {φ : Type} {look : L.Context → L.Value → Look L.Value φ}
  {c c' c'' : L.Context} {v v' v'' : L.Value}

/-- Values that look the same in two contexts, all the way down. -/
def LooksAlike (look : L.Context → L.Value → Look L.Value φ) (c c' : L.Context) (v v' : L.Value) :
    Prop :=
  ∃ R : L.Value → L.Value → Prop, R v v' ∧ ∀ w w', R w w' → Look.Rel R (look c w) (look c' w')

namespace LooksAlike

theorem symm (h : LooksAlike look c c' v v') : LooksAlike look c' c v' v := by
  rcases h with ⟨R, hv, hR⟩
  exact ⟨fun w u => R u w, hv, fun w u hw => (hR u w hw).flip⟩

theorem trans (h : LooksAlike look c c' v v') (h' : LooksAlike look c' c'' v' v'') :
    LooksAlike look c c'' v v'' := by
  rcases h with ⟨R, hv, hR⟩
  rcases h' with ⟨R', hv', hR'⟩
  refine ⟨fun u w => ∃ x, R u x ∧ R' x w, ⟨v', hv, hv'⟩, ?_⟩
  rintro u w ⟨x, hux, hxw⟩
  exact (hR u x hux).trans (fun _ y _ h h' => ⟨y, h, h'⟩) (hR' x w hxw)

end LooksAlike

/-- What variables hold, if anything, looks the same. -/
def SameVariable (look : L.Context → L.Value → Look L.Value φ) (name : String)
    (c c' : L.Context) : Prop :=
  Option.Rel (LooksAlike look c c') ((L.getVariable? name).run c).1 ((L.getVariable? name).run c').1

namespace SameVariable

variable {name : String}

theorem symm (h : SameVariable look name c c') : SameVariable look name c' c :=
  optionRel_symm (fun _ _ hv => hv.symm) h

theorem trans (h : SameVariable look name c c') (h' : SameVariable look name c' c'') :
    SameVariable look name c c'' :=
  optionRel_trans (fun _ _ _ hv hv' => hv.trans hv') h h'

end SameVariable

/-- A language that an engine can rely on to make values and to keep one of them in a
    variable, where values are made of the second kind of sources, and scripts of the first
    kind may have done anything to a context before. -/
structure LookLaws (L : WebLanguage) (S inert : String → Prop) (name : String) : Type 1 where
  /-- What can be seen of functions. -/
  Function : Type
  look : L.Context → L.Value → Look L.Value Function
  allowed : ∀ source, inert source → S source
  /-- The same operations make what looks the same wherever they are performed. -/
  made : ∀ h h', L.Common (Operation.Allowed S) h → L.Common (Operation.Allowed S) h' →
    ∀ operations : List Operation, (∀ o ∈ operations, o.Makes inert) →
    let m := Holding.after operations ⟨h.context, []⟩
    let m' := Holding.after operations ⟨h'.context, []⟩
    replies operations ⟨h'.context, []⟩ = replies operations ⟨h.context, []⟩ ∧
      List.Forall₂ (LooksAlike look m.context m'.context) m.values m'.values
  /-- What is made leaves the variable as it was. -/
  kept : ∀ h, L.Common (Operation.Allowed S) h → ∀ operations : List Operation,
    (∀ o ∈ operations, o.Makes inert) →
    SameVariable look name h.context (Holding.after operations ⟨h.context, []⟩).context
  /-- What was made and put into the variable is there. -/
  installed : ∀ h, L.Common (Operation.Allowed S) h → ∀ operations : List Operation,
    (∀ o ∈ operations, o.Makes inert) →
    let m := Holding.after operations ⟨h.context, []⟩
    ∀ v ∈ m.values,
    let c := L.withVariable name v m.context
    ∃ w, ((L.getVariable? name).run c).1 = some w ∧ LooksAlike look m.context c v w

end WebLanguage

end MapStyling
