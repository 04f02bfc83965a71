import MapStyling.Proofs.WebScript.Scripts

/-!
# Literals

What reading an inert source does to the store, in closed form.

A literal that is no function has a value of its own and leaves the store
alone. A function takes one new cell, and one more for the scope of its name if
it has one. The form is needed where two stores are alike only in part: no
script runs, so nothing has to be known about what is left out.

## Main definitions

* `evaluateLiteral`: The value of a literal, and the store with it.
* `Store.Twin.Took`: Twins that took a value each.

## Theorems

* `run_evaluate_literal`: The closed form is what evaluation does.
* `Store.Twin.evaluateLiteral`: Twins that take the same literal.
-/

namespace MapStyling

namespace WebScript

/-- The cell of a function that a script writes outside of all others. -/
def scriptClosure (f : Function) (scopes : List Nat) : Cell :=
  .object (.closure f scopes (if f.isArrow then .reference Store.globalObject else .undefined))
    (.common .function) []

/-- The value of a literal, and the store with it. -/
def evaluateLiteral (e : Expression) (s : Store) : Value × Store :=
  match e with
  | .boolean b => (.boolean b, s)
  | .number v => (.number v, s)
  | .text u => (.text u, s)
  | .function none parameters body =>
    (.reference s.size, (s.add (scriptClosure ⟨[], parameters, body, false⟩ [Store.scriptScope])).2)
  | .function (some name) parameters body =>
    let t := (s.add (.scope [(name, ⟨none, .fixed⟩)])).2
    let u := (t.add (scriptClosure ⟨name, parameters, body, false⟩ [s.size, Store.scriptScope])).2
    (.reference t.size, u.setVariable s.size name ⟨some (.reference t.size), .fixed⟩)
  | .arrow parameters body =>
    (.reference s.size, (s.add (scriptClosure ⟨[], parameters, body, true⟩ [Store.scriptScope])).2)
  | _ => (.null, s)

/-- Evaluation of a literal, on any store. -/
theorem run_evaluate_literal {e : Expression} (he : e.isLiteral = true) (s : Store) :
    (evaluate callFunction scriptFrame e).run s
      = (some (evaluateLiteral e s).1, (evaluateLiteral e s).2) := by
  cases e with
  | function name parameters body =>
      cases name with
      | none =>
          rw [evaluate]
          rfl
      | some name =>
          rw [evaluate]
          rfl
  | arrow parameters body =>
      rw [evaluate]
      rfl
  | null | boolean | number | text =>
      rw [evaluate]
      rfl
  | _ => exact absurd he (by simp only [Expression.isLiteral, Bool.false_eq_true,
      not_false_eq_true])

theorem Store.Sound.scriptScope_lt {m : Nat} {s : Store} (h : s.Sound m) :
    Store.scriptScope < s.size := by
  rcases h.scriptScope with ⟨_, hc⟩
  exact lt_size_of_getElem? hc

theorem mem_addresses_scriptClosure {f : Function} {scopes : List Nat} {b : Nat}
    (h : b ∈ (scriptClosure f scopes).addresses) : b ∈ scopes ∨ b = Store.globalObject := by
  simp only [scriptClosure, Cell.addresses, List.filterMap_nil, List.nil_append,
    List.mem_append, Option.mem_toList] at h
  rcases h with (h | h) | h
  · exact Or.inl h
  · split at h
    · exact Or.inr (Option.some.inj h).symm
    · exact absurd h (by simp only [Value.address?, reduceCtorEq, not_false_eq_true])
  · exact absurd h (by simp only [Value.address?, reduceCtorEq, not_false_eq_true])

theorem alike_scriptClosure {D : Nat → Prop} {ρ : Nat → Nat} {s t : Store}
    (h : Store.Alike D ρ s t) (f : Function) (scopes : List Nat) :
    Cell.Alike ρ (scriptClosure f scopes) (scriptClosure f (scopes.map ρ)) := by
  have hself : (if f.isArrow then Value.reference Store.globalObject else .undefined).moved ρ
      = if f.isArrow then .reference Store.globalObject else .undefined := by
    split
    · rw [Value.moved_reference, h.globalObject]
    · rfl
  have hcell : Cell.Alike ρ (scriptClosure f scopes)
      (.object (.closure f (scopes.map ρ) (Value.moved ρ _)) (.common .function) []) :=
    .object (.closure f scopes _) (.common .function) fun _ => rfl
  rwa [hself] at hcell

namespace Store

namespace Twin

variable {D : Nat → Prop} {m : Nat} {ρ : Nat → Nat} {s t : Store}

theorem addClosure (h : Store.Twin D m ρ s t) {f : Function} {scopes : List Nat}
    (hs : ∀ a ∈ scopes, a < s.size) (hw : ∀ x ∈ f.targets, s.Writable m scopes x) :
    Store.Twin D m ρ (s.add (scriptClosure f scopes)).2
      (t.add (scriptClosure f (scopes.map ρ))).2 := by
  refine h.add (alike_scriptClosure h.alike f scopes) (fun b hb => ?_) rfl ?_
  · rcases mem_addresses_scriptClosure hb with hmem | hzero
    · exact hs b hmem
    · have hlt := h.sound.scriptScope_lt
      rw [hzero]
      exact Nat.lt_of_le_of_lt (Nat.zero_le _) hlt
  · intro g outer self p properties heq x hx
    cases heq
    exact hw x hx

/-- What is left of a store that took a value, beside its twin: the values belong together,
    and are either no references or new. -/
def Took (D : Nat → Prop) (m : Nat) (ρ : Nat → Nat) (s : Store) (r r' : Value × Store) : Prop :=
  Store.Twin D m ρ r.2 r'.2 ∧ s.Keeps m r.2 ∧ r.1.Paired ρ r.2 r'.1 ∧ r.1.In D

theorem took_plain (h : Store.Twin D m ρ s t) {v : Value} (hv : v.address? = none) :
    Took D m ρ s (v, s) (v, t) :=
  ⟨h, .refl m s, ⟨(Value.moved_of_no_address hv).symm, Value.below_of_no_address hv⟩,
    Value.in_of_no_address hv⟩

/-- The cell that comes next is as new in the one store as in the other. -/
theorem in_size (h : Store.Twin D m ρ s t) : (Value.reference s.size).In D := by
  intro a ha
  rw [← Option.some.inj ha]
  exact h.alike.fresh _ (Nat.le_refl _)

theorem below_add (s : Store) (c : Cell) : (Value.reference s.size).Below (s.add c).2.size := by
  refine Value.below_reference ?_
  rw [size_add]
  omega

theorem took_closure (h : Store.Twin D m ρ s t) {f : Function} {scopes : List Nat}
    (hs : ∀ a ∈ scopes, a < s.size) (hw : ∀ x ∈ f.targets, s.Writable m scopes x) :
    Took D m ρ s (.reference s.size, (s.add (scriptClosure f scopes)).2)
      (.reference t.size, (t.add (scriptClosure f (scopes.map ρ))).2) := by
  refine ⟨h.addClosure hs hw, .add s _ h.sound.mark_le, ⟨?_, below_add s _⟩, h.in_size⟩
  rw [Value.moved_reference, h.alike.move_size]

/-- A function with a name of its own: the scope of the name comes first, and the function is
    written to it last. -/
theorem took_named (h : Store.Twin D m ρ s t) {name : Units} {parameters : List Units}
    {body : List Statement}
    (hw : ∀ x ∈ (Function.mk name parameters body false).targets,
      s.Writable m [scriptScope] x) :
    Took D m ρ s (WebScript.evaluateLiteral (.function (some name) parameters body) s)
      (WebScript.evaluateLiteral (.function (some name) parameters body) t) := by
  have hm := h.sound.mark_le
  have hscope := h.sound.scriptScope_lt
  have h₁ := h.add (.scope [(name, ⟨none, .fixed⟩)]) (fun b hb => absurd hb List.not_mem_nil) rfl
    fun _ _ _ _ _ heq => by cases heq
  have hk₁ := Keeps.add s (.scope [(name, ⟨none, .fixed⟩)]) hm
  simp only [List.map_cons, List.map_nil, Variable.moved, Option.map_none] at h₁
  simp only [WebScript.evaluateLiteral]
  generalize hs₁ : (s.add (.scope [(name, ⟨none, .fixed⟩)])).2 = s₁ at h₁ hk₁ ⊢
  generalize ht₁ : (t.add (.scope [(name, ⟨none, .fixed⟩)])).2 = t₁ at h₁ ⊢
  have hsize : s₁.size = s.size + 1 := by rw [← hs₁, size_add]
  have hscopes₁ : ∀ a ∈ [s.size, scriptScope], a < s₁.size := by
    intro a ha
    simp only [List.mem_cons, List.not_mem_nil, or_false] at ha
    rcases ha with ha | ha <;> omega
  -- The function can write to its own name, since the scope that holds it is new.
  rcases h₁.took_closure (f := ⟨name, parameters, body, false⟩) hscopes₁
    fun x hx => .cons hm (hk₁.writable (hw x hx)) with ⟨h₂, hk₂, hv, hin⟩
  rw [List.map_cons, List.map_singleton, h.alike.scriptScope, h.alike.move_size] at h₂
  have h₃ := h₂.setVariable hm (h.alike.fresh _ (Nat.le_refl _)) name hv.2 .fixed
  rw [Value.moved_reference, h₁.alike.move_size, h.alike.move_size] at h₃
  exact ⟨h₃.1, hk₁.trans (hk₂.trans h₃.2), ⟨hv.1, hv.2.mono h₃.2.size_le⟩, hin⟩

/-- What a literal leaves of twins. -/
theorem evaluateLiteral (h : Store.Twin D m ρ s t) {e : Expression}
    (hw : ∀ x ∈ e.targets, s.Writable m [scriptScope] x) :
    Took D m ρ s (WebScript.evaluateLiteral e s) (WebScript.evaluateLiteral e t) := by
  -- Without a name, a function is one cell in the scope of all scripts.
  have hclosure : ∀ {f : Function}, (∀ x ∈ f.targets, s.Writable m [scriptScope] x) →
      Took D m ρ s (.reference s.size, (s.add (scriptClosure f [scriptScope])).2)
        (.reference t.size, (t.add (scriptClosure f [scriptScope])).2) := by
    intro f hf
    have hscopes : ∀ a ∈ [scriptScope], a < s.size := by
      intro a ha
      rw [List.mem_singleton.mp ha]
      exact h.sound.scriptScope_lt
    have htook := h.took_closure hscopes hf
    rwa [List.map_singleton, h.alike.scriptScope] at htook
  cases e with
  | function name parameters body =>
      rw [Expression.targets_function name (name.getD []) _ _ false] at hw
      cases name with
      | none => exact hclosure hw
      | some name => exact h.took_named hw
  | arrow parameters body =>
      rw [Expression.targets_arrow [] _ _ true] at hw
      exact hclosure hw
  | _ => exact h.took_plain rfl

end Twin

theorem Sound.twin {m : Nat} {s : Store} (h : s.Sound m) : Store.Twin everywhere m id s s :=
  ⟨h, .refl s⟩

end Store

end WebScript

end MapStyling
