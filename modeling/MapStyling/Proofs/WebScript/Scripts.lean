import MapStyling.Proofs.WebScript.Evaluations

/-!
# Whole Scripts

What a source runs when it is read.

A script at large declares variables outside of functions, where all scripts
see them, so nothing is promised of what it writes to. A source that is no more
than a literal declares nothing and runs nothing: its value is that of the
literal, and if the literal is a function it takes one new cell.

## Main definitions

* `scriptFrame`: The frame of what is written outside of functions.

## Theorems

* `tied_runScript`: Whole scripts, which may write to anything.
* `runScript_expression`: A script that is one expression.
-/

namespace MapStyling

namespace WebScript

/-- The frame of what is written outside of functions. -/
def scriptFrame : Frame := ⟨[Store.scriptScope], .reference Store.globalObject⟩

theorem scriptFrame_moved {D : Nat → Prop} {ρ : Nat → Nat} {s t : Store}
    (h : Store.Alike D ρ s t) : scriptFrame.moved ρ = scriptFrame := by
  simp only [scriptFrame, Frame.moved, List.map_cons, List.map_nil, h.scriptScope,
    Value.moved_reference, h.globalObject]

theorem Store.writable_zero (s : Store) (scopes : List Nat) (x : Target) :
    s.Writable 0 scopes x := by
  cases x with
  | name n => exact Nat.zero_le _
  | member => rfl

theorem Store.Sound.ready_scriptFrame {m : Nat} {s : Store} (h : s.Sound m)
    {targets : List Target} (hw : ∀ x ∈ targets, s.Writable m [Store.scriptScope] x) :
    scriptFrame.Ready m s targets where
  scopes := by
    intro a ha
    rcases h.scriptScope with ⟨_, hc⟩
    rw [List.mem_singleton.mp ha]
    exact lt_size_of_getElem? hc
  self := by
    rcases h.globalObject with ⟨_, _, hc⟩
    exact Value.below_reference (lt_size_of_getElem? hc)
  writable := hw

theorem tied_declareGlobals {ρ : Nat → Nat} : ∀ (names : List Units) {s t : Store},
    Store.Twin everywhere 0 ρ s t →
    Tied 0 ρ Same (declareGlobals names) (declareGlobals names) s t := by
  intro names
  induction names with
  | nil =>
      intro s t h
      exact .pure h rfl
  | cons name rest ih =>
      intro s t h
      simp only [declareGlobals]
      refine .get_bind ?_
      rw [h.alike.global? h.sound.grounded trivial, Option.isNone_map]
      split
      · have hset := Tied.setProperty h (.reference Store.globalObject) name
          (fun _ _ => Nat.zero_le _) (Value.below_of_no_address
            (rfl : Value.undefined.address? = _))
        rw [Value.moved_reference, h.alike.globalObject] at hset
        exact hset.bind fun _ _ _ _ h' _ _ => ih h'
      · exact ih h

/-- A scope with the variables of a block added to it. -/
def Cell.declaring (body : List Statement) : Cell → Cell
  | .scope vs => .scope (vs ++ blockVariables body)
  | c => c

theorem Store.Twin.declaring {m : Nat} {ρ : Nat → Nat} {s t : Store}
    (h : Store.Twin everywhere m ρ s t) {a : Nat} (hm : m ≤ a) (body : List Statement) :
    Store.Twin everywhere m ρ (s.modify a (Cell.declaring body))
        (t.modify (ρ a) (Cell.declaring body)) ∧
      s.Keeps m (s.modify a (Cell.declaring body)) := by
  have hbecomes : ∀ c, s.cells[a]? = some c → c.Becomes (c.declaring body) := by
    intro c _
    cases c with
    | object shape p properties => exact .refl _
    | scope vs =>
        refine .scope fun n hn => ?_
        rw [List.lookup_append, Option.isSome_or, hn, Bool.true_or]
  -- New variables have no values yet, so they refer to nothing.
  refine ⟨h.modify hm trivial (fun c hc => ⟨hbecomes c hc, ?_, ?_⟩) ?_, .modify hm hbecomes⟩
  · cases c <;> rfl
  · intro b hb
    cases c with
    | object shape p properties => exact h.sound.closed a _ hc b hb
    | scope vs =>
        rw [Cell.declaring, addresses_append, addresses_blockVariables, List.append_nil] at hb
        exact h.sound.closed a _ hc b hb
  · intro c d _ _ hcd
    cases hcd with
    | object shape p hprops => exact .object shape p hprops
    | scope vs =>
        have happend : Cell.Alike ρ (.scope (vs ++ blockVariables body)) _ := .scope _
        rwa [List.map_append, blockVariables_moved] at happend

theorem tied_declareScript {ρ : Nat → Nat} {s t : Store} (h : Store.Twin everywhere 0 ρ s t)
    (body : List Statement) : Tied 0 ρ Same (declareScript body) (declareScript body) s t := by
  unfold declareScript
  refine .get_bind ?_
  have hold : ∀ n, ((t.bindings Store.scriptScope).lookup n).isSome
      = ((s.bindings Store.scriptScope).lookup n).isSome := by
    intro n
    have hb := h.alike.bindings (a := Store.scriptScope) trivial
    rw [h.alike.scriptScope] at hb
    rw [hb, Entries.lookup_map (Variable.moved ρ), Option.isSome_map]
  simp only [hold]
  split
  · exact .failure_bind h
  · have hdeclared := h.declaring (Nat.zero_le Store.scriptScope) body
    rw [h.alike.scriptScope] at hdeclared
    exact (Tied.modify hdeclared.1 hdeclared.2).bind fun _ _ _ _ h₁ _ _ => tied_declareGlobals _ h₁

/-- Whole scripts, with what they declare outside of functions. -/
theorem tied_runScript {ρ : Nat → Nat} {s t : Store} (h : Store.Twin everywhere 0 ρ s t)
    (body : List Statement) :
    Tied 0 ρ (Value.Paired ρ) (runScript body) (runScript body) s t := by
  unfold runScript
  refine (tied_declareScript h body).bind fun _ _ s₁ t₁ h₁ _ _ => ?_
  -- A script may write to all that is there before it, so its frame is ready for any target.
  have hready : ∀ {s' t' : Store}, Store.Twin everywhere 0 ρ s' t' →
      scriptFrame.Ready 0 s' (bodyTargets body) :=
    fun h' => h'.sound.ready_scriptFrame fun x _ => Store.writable_zero _ _ x
  have hdeclare := Tied.declareFunctions_of_body h₁ (hready h₁)
  rw [scriptFrame_moved h₁.alike] at hdeclare
  refine hdeclare.bind fun _ _ s₂ t₂ h₂ _ _ => ?_
  have hnone : ∀ v, (none : Option Value) = some v → v.Below s₂.size := fun _ hv => by cases hv
  have hall := steady_callFunction.executeAll body h₂ (hready h₂) hnone
  rw [scriptFrame_moved h₂.alike] at hall
  refine hall.bind fun c d s₃ t₃ h₃ _ hcd => ?_
  cases hcd with
  | returned hv => exact .pure h₃ ⟨rfl, hv⟩
  | normal hv =>
      rename_i v
      cases v with
      | none => exact .pure_value h₃ rfl
      | some v => exact .pure h₃ ⟨rfl, hv v rfl⟩

theorem Store.modify_eq_self {s : Store} {a : Nat} {f : Cell → Cell} (hf : ∀ c, f c = c) :
    s.modify a f = s := by
  refine congrArg Store.mk (Array.ext_getElem? fun b => ?_)
  rw [Array.getElem?_modify]
  split
  · rcases s.cells[b]? with _ | c
    · rfl
    · rw [Option.map_some, hf]
  · rfl

/-- A script that is one expression declares nothing. -/
theorem declareScript_expression (e : Expression) :
    declareScript [.expression e] = pure () := by
  funext s
  have hs : s.modify Store.scriptScope (Cell.declaring [.expression e]) = s := by
    refine Store.modify_eq_self fun c => ?_
    cases c with
    | object shape p properties => rfl
    | scope vs => exact congrArg Cell.scope (List.append_nil vs)
  change (some (), s.modify Store.scriptScope (Cell.declaring [.expression e])) = (some (), s)
  rw [hs]

theorem runScript_expression (e : Expression) :
    runScript [.expression e] = evaluate callFunction scriptFrame e := by
  unfold runScript
  rw [declareScript_expression]
  simp only [pure_bind, Statement.function?, List.filterMap_cons, List.filterMap_nil,
    declareFunctions, executeAll, execute, bind_assoc, Option.some_or, Option.getD_some]
  exact bind_pure _

end WebScript

end MapStyling
