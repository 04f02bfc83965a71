import MapStyling.Proofs.WebScript.Conversions
import MapStyling.Proofs.WebScript.Scopes

/-!
# Tied Evaluations

Running a term in twin stores.

If a frame is ready for the targets of a term, then evaluating the term in the
frame and in the moved frame are tied. The proof follows the recursion of the
evaluator on terms, over any steady way of calling. Calls up to a depth are
steady by induction on the depth, since a function in a sound store has scopes
that are ready for its targets.

## Main definitions

* `Completion.Paired`: Ends of statements that belong together.

## Theorems

* `Caller.Steady.evaluate`: Expressions.
* `Caller.Steady.executeAll`: Statements.
* `Caller.Steady.invoke`: Calls.
* `steady_callFunction`: The way in which scripts are called.
-/

namespace MapStyling

namespace WebScript

/-- Properties of one store, and the same ones of the other. -/
def EntriesPaired (ρ : Nat → Nat) (s : Store) (ps qs : List (Units × Value)) : Prop :=
  qs = ps.map (fun p => (p.1, p.2.moved ρ)) ∧ ∀ p ∈ ps, p.2.Below s.size

/-- Ends of statements that belong together. -/
inductive Completion.Paired (ρ : Nat → Nat) (s : Store) : Completion → Completion → Prop
  | normal {v : Option Value} (h : ∀ w, v = some w → w.Below s.size) :
      Paired ρ s (.normal v) (.normal (v.map (Value.moved ρ)))
  | returned {v : Value} (h : v.Below s.size) : Paired ρ s (.returned v) (.returned (v.moved ρ))

theorem Completion.Paired.none {ρ : Nat → Nat} {s : Store} :
    Completion.Paired ρ s (.normal none) (.normal none) :=
  .normal fun _ h => by cases h

theorem Completion.Paired.some {ρ : Nat → Nat} {s : Store} {v : Value} (h : v.Below s.size) :
    Completion.Paired ρ s (.normal (some v)) (.normal (some (v.moved ρ))) :=
  .normal fun _ hw => by
    cases hw
    exact h

/-- A branch without a value counts as an undefined one. -/
theorem Tied.branch {m : Nat} {ρ : Nat → Nat} {s t : Store} {x y : Completion}
    (h : Store.Twin everywhere m ρ s t) : Completion.Paired ρ s x y →
    Tied m ρ (Completion.Paired ρ)
      (match x with
        | .normal none => return .normal (some .undefined)
        | other => return other)
      (match y with
        | .normal none => return .normal (some .undefined)
        | other => return other) s t := by
  intro hxy
  cases hxy with
  | returned hv => exact .pure h (.returned hv)
  | @normal v hv =>
      cases v with
      | none => exact .pure h (.some (Value.below_of_no_address rfl))
      | some v => exact .pure h (.some (hv v rfl))

/-- A function without a name is a new cell, so it may be given one. -/
theorem Tied.nameable {m : Nat} {ρ : Nat → Nat} {call : Caller} {e : Expression} {s t : Store}
    {frame : Frame} (h : Store.Twin everywhere m ρ s t) (hf : frame.Ready m s e.targets)
    (he : Tied m ρ (Value.Paired ρ) (evaluate call frame e) (evaluate call (frame.moved ρ) e)
      s t) :
    Tied m ρ (fun s' v w => v.Paired ρ s' w ∧
        (isNameless e = true → ∀ a, v.address? = some a → m ≤ a))
      (evaluate call frame e) (evaluate call (frame.moved ρ) e) s t := by
  -- Only a function can be nameless, and closing one makes a new cell.
  by_cases hless : isNameless e = true
  · unfold isNameless at hless
    split at hless
    · rw [Expression.targets_function none [] _ _ false] at hf
      simp only [evaluate]
      exact (close h hf).imp fun _ _ _ _ hvw => ⟨hvw.1, fun _ => hvw.2⟩
    · rw [Expression.targets_arrow [] _ _ true] at hf
      simp only [evaluate]
      exact (close h hf).imp fun _ _ _ _ hvw => ⟨hvw.1, fun _ => hvw.2⟩
    · exact absurd hless Bool.false_ne_true
  · exact he.imp fun _ _ _ _ hvw => ⟨hvw, fun hless' => absurd hless' hless⟩

/-- An expression whose runs in twin stores are tied. -/
def Expression.Steady (m : Nat) (ρ : Nat → Nat) (call : Caller) (e : Expression) : Prop :=
  ∀ ⦃s t : Store⦄ ⦃frame : Frame⦄, Store.Twin everywhere m ρ s t → frame.Ready m s e.targets →
    Tied m ρ (Value.Paired ρ) (evaluate call frame e) (evaluate call (frame.moved ρ) e) s t

/-- Expressions whose runs one after the other are tied. -/
def AllSteady (m : Nat) (ρ : Nat → Nat) (call : Caller) (es : List Expression) : Prop :=
  ∀ ⦃s t : Store⦄ ⦃frame : Frame⦄, Store.Twin everywhere m ρ s t →
    frame.Ready m s (allTargets es) →
    Tied m ρ (Value.AllPaired ρ) (evaluateAll call frame es)
      (evaluateAll call (frame.moved ρ) es) s t

namespace Expression.Steady

variable {m : Nat} {ρ : Nat → Nat} {call : Caller}

/-- Two expressions one after the other, and a run on their values. -/
theorem operands {α : Type} {A : Store → α → α → Prop} {e f : Expression}
    (he : e.Steady m ρ call) (hf : f.Steady m ρ call) {s t : Store} {frame : Frame}
    (h : Store.Twin everywhere m ρ s t) (hframe : frame.Ready m s (e.targets ++ f.targets))
    {r r' : Value → Value → Run α}
    (hr : ∀ {v w : Value} {s' t' : Store}, Store.Twin everywhere m ρ s' t' → s.Keeps m s' →
      v.Below s'.size → w.Below s'.size →
      Tied m ρ A (r v w) (r' (v.moved ρ) (w.moved ρ)) s' t') :
    Tied m ρ A
      (do let v ← evaluate call frame e
          let w ← evaluate call frame f
          r v w)
      (do let v ← evaluate call (frame.moved ρ) e
          let w ← evaluate call (frame.moved ρ) f
          r' v w) s t := by
  refine (he h hframe.left).bind fun v v' s₁ t₁ h₁ hk₁ hv => ?_
  refine (hf h₁ (hframe.right.keeps hk₁)).bind fun w w' s₂ t₂ h₂ hk₂ hw => ?_
  rw [hv.1, hw.1]
  exact hr h₂ (hk₁.trans hk₂) (hv.2.mono hk₂.size_le) hw.2

theorem function (own : Option Units) (parameters : List Units) (body : List Statement) :
    (Expression.function own parameters body).Steady m ρ call := by
  intro s t frame h hf
  cases own with
  | none =>
      rw [Expression.targets_function none [] _ _ false] at hf
      simp only [WebScript.evaluate]
      exact (Tied.close h hf).imp fun _ _ _ _ hvw => hvw.1
  | some name =>
      rw [Expression.targets_function _ name _ _ false] at hf
      simp only [WebScript.evaluate]
      exact .closeNamed h hf

theorem arrow (parameters : List Units) (body : List Statement) :
    (Expression.arrow parameters body).Steady m ρ call := by
  intro s t frame h hf
  rw [Expression.targets_arrow [] _ _ true] at hf
  simp only [WebScript.evaluate]
  exact (Tied.close h hf).imp fun _ _ _ _ hvw => hvw.1

theorem member (hc : call.Steady m ρ) {e key : Expression} (he : e.Steady m ρ call)
    (hkey : key.Steady m ρ call) : (Expression.member e key).Steady m ρ call := by
  intro s t frame h hf
  rw [Expression.targets] at hf
  simp only [WebScript.evaluate]
  refine he.operands hkey h hf fun {v k s₁ t₁} h₁ _ _ hk => ?_
  rw [Value.isNothing_moved]
  split
  · exact .failure_bind h₁
  · refine (hc.toText h₁ hk).bind fun name name' s₂ t₂ h₂ _ hname => ?_
    rw [hname]
    exact .property h₂ v name

/-- A call of a member, which is read from the value that it is called on. -/
theorem callMember (hc : call.Steady m ρ) {e key : Expression} {arguments : List Expression}
    (he : e.Steady m ρ call) (hkey : key.Steady m ρ call)
    (hargs : AllSteady m ρ call arguments) :
    (Expression.call (.member e key) arguments).Steady m ρ call := by
  intro s t frame h hf
  rw [Expression.targets] at hf
  have hmember := hf.left
  have hright := hf.right
  rw [Expression.targets] at hmember
  simp only [WebScript.evaluate]
  refine he.operands hkey h hmember fun {v k s₁ t₁} h₁ hk₁ hv hk => ?_
  rw [Value.isNothing_moved]
  split
  · exact .failure_bind h₁
  · refine (hc.toText h₁ hk).bind fun name name' s₂ t₂ h₂ hk₂ hname => ?_
    rw [hname]
    -- The function is looked up before the arguments are evaluated, which may change the object.
    refine (Tied.property h₂ v name).bind fun f g s₃ t₃ h₃ hk₃ hfg => ?_
    have hkeeps := hk₂.trans hk₃
    refine (hargs h₃ (hright.keeps (hk₁.trans hkeeps))).bind fun vs ws s₄ t₄ h₄ hk₄ hvws => ?_
    rw [hfg.1, hvws.1]
    exact hc h₄ f (hv.mono (hkeeps.trans hk₄).size_le) hvws.2

theorem callValue (hc : call.Steady m ρ) {callee : Expression} {arguments : List Expression}
    (hmember : ∀ e key, callee ≠ .member e key) (hcallee : callee.Steady m ρ call)
    (hargs : AllSteady m ρ call arguments) :
    (Expression.call callee arguments).Steady m ρ call := by
  intro s t frame h hf
  rw [Expression.targets] at hf
  rw [evaluate_call hmember, evaluate_call hmember]
  refine (hcallee h hf.left).bind fun f g s₁ t₁ h₁ hk₁ hfg => ?_
  refine (hargs h₁ (hf.right.keeps hk₁)).bind fun vs ws s₂ t₂ h₂ _ hvws => ?_
  rw [hfg.1, hvws.1]
  exact hc h₂ f (Value.below_of_no_address rfl) hvws.2

theorem unary (hc : call.Steady m ρ) (op : UnaryOperator) {e : Expression}
    (he : e.Steady m ρ call) : (Expression.unary op e).Steady m ρ call := by
  intro s t frame h hf
  rw [Expression.targets] at hf
  -- The kind of a name is asked for without reading it.
  by_cases hname : op = .typeof ∧ ∃ n, e = .name n
  · rcases hname with ⟨hop, n, he⟩
    subst hop he
    simp only [WebScript.evaluate]
    exact .typeOfName h frame n
  · rw [evaluate_unary fun n hop he => hname ⟨hop, n, he⟩,
      evaluate_unary fun n hop he => hname ⟨hop, n, he⟩]
    refine (he h hf).bind fun v w s₁ t₁ h₁ _ hvw => ?_
    rw [hvw.1]
    exact hc.computeUnary op h₁ hvw.2

theorem binary (hc : call.Steady m ρ) (op : BinaryOperator) {e f : Expression}
    (he : e.Steady m ρ call) (hf : f.Steady m ρ call) :
    (Expression.binary op e f).Steady m ρ call := by
  intro s t frame h hframe
  rw [Expression.targets] at hframe
  simp only [WebScript.evaluate]
  exact he.operands hf h hframe fun h₁ _ hv hw => hc.compute op h₁ hv hw

/-- An expression, and on its truth either of two runs that go on from there. -/
theorem choice {e : Expression} (he : e.Steady m ρ call) {s t : Store} {frame : Frame}
    (h : Store.Twin everywhere m ρ s t) (hframe : frame.Ready m s e.targets)
    {yes yes' no no' : Value → Run Value}
    (hyes : ∀ {v : Value} {s' t' : Store}, Store.Twin everywhere m ρ s' t' → s.Keeps m s' →
      v.Below s'.size → Tied m ρ (Value.Paired ρ) (yes v) (yes' (v.moved ρ)) s' t')
    (hno : ∀ {v : Value} {s' t' : Store}, Store.Twin everywhere m ρ s' t' → s.Keeps m s' →
      v.Below s'.size → Tied m ρ (Value.Paired ρ) (no v) (no' (v.moved ρ)) s' t') :
    Tied m ρ (Value.Paired ρ)
      (do let v ← evaluate call frame e
          if v.truth then yes v else no v)
      (do let v ← evaluate call (frame.moved ρ) e
          if v.truth then yes' v else no' v) s t := by
  refine (he h hframe).bind fun v w s₁ t₁ h₁ hk₁ hvw => ?_
  rw [hvw.1, Value.truth_moved]
  split
  · exact hyes h₁ hk₁ hvw.2
  · exact hno h₁ hk₁ hvw.2

theorem both {e f : Expression} (he : e.Steady m ρ call) (hf : f.Steady m ρ call) :
    (Expression.both e f).Steady m ρ call := by
  intro s t frame h hframe
  rw [Expression.targets] at hframe
  simp only [WebScript.evaluate]
  exact he.choice h hframe.left (fun h₁ hk₁ _ => hf h₁ (hframe.right.keeps hk₁))
    fun h₁ _ hv => .pure h₁ ⟨rfl, hv⟩

theorem either {e f : Expression} (he : e.Steady m ρ call) (hf : f.Steady m ρ call) :
    (Expression.either e f).Steady m ρ call := by
  intro s t frame h hframe
  rw [Expression.targets] at hframe
  simp only [WebScript.evaluate]
  exact he.choice h hframe.left (fun h₁ _ hv => .pure h₁ ⟨rfl, hv⟩)
    fun h₁ hk₁ _ => hf h₁ (hframe.right.keeps hk₁)

theorem conditional {c e f : Expression} (hc : c.Steady m ρ call) (he : e.Steady m ρ call)
    (hf : f.Steady m ρ call) : (Expression.conditional c e f).Steady m ρ call := by
  intro s t frame h hframe
  rw [Expression.targets] at hframe
  have hleft := hframe.left
  simp only [WebScript.evaluate]
  exact hc.choice h hleft.left (fun h₁ hk₁ _ => he h₁ (hleft.right.keeps hk₁))
    fun h₁ hk₁ _ => hf h₁ (hframe.right.keeps hk₁)

theorem sequence {e f : Expression} (he : e.Steady m ρ call) (hf : f.Steady m ρ call) :
    (Expression.sequence e f).Steady m ρ call := by
  intro s t frame h hframe
  rw [Expression.targets] at hframe
  simp only [WebScript.evaluate]
  refine (he h hframe.left).discard.bind fun _ _ s₁ t₁ h₁ hk₁ _ => ?_
  exact hf h₁ (hframe.right.keeps hk₁)

/-- A value that a name is set to, which may have to be named after it. -/
theorem assignName {e : Expression} (he : e.Steady m ρ call) (n : Units) :
    (Expression.assignName n none e).Steady m ρ call := by
  intro s t frame h hf
  rw [Expression.targets] at hf
  have hvalue := hf.tail
  simp only [WebScript.evaluate]
  refine (Tied.nameable h hvalue (he h hvalue)).bind fun v w s₁ t₁ h₁ hk₁ hvw => ?_
  rw [hvw.1.1]
  refine (Tied.nameAfter h₁ e n hvw.2).bind fun _ _ s₂ t₂ h₂ hk₂ _ => ?_
  have hname := (hf.keeps (hk₁.trans hk₂)).head
  refine (Tied.writeName h₂ hname (hvw.1.2.mono hk₂.size_le)).bind fun _ _ s₃ t₃ h₃ hk₃ _ => ?_
  exact .pure h₃ ⟨rfl, hvw.1.2.mono (hk₂.trans hk₃).size_le⟩

/-- A name set to what an operator makes of its value. -/
theorem updateName (hc : call.Steady m ρ) {e : Expression} (he : e.Steady m ρ call) (n : Units)
    (op : BinaryOperator) : (Expression.assignName n (some op) e).Steady m ρ call := by
  intro s t frame h hf
  rw [Expression.targets] at hf
  simp only [WebScript.evaluate]
  refine (Tied.readName h frame n).bind fun old old' s₁ t₁ h₁ hk₁ hold => ?_
  refine (he h₁ (hf.tail.keeps hk₁)).bind fun v w s₂ t₂ h₂ hk₂ hvw => ?_
  rw [hold.1, hvw.1]
  refine (hc.compute op h₂ (hold.2.mono hk₂.size_le) hvw.2).bind fun u u' s₃ t₃ h₃ hk₃ hu => ?_
  have hname := (hf.keeps (hk₁.trans (hk₂.trans hk₃))).head
  rw [hu.1]
  refine (Tied.writeName h₃ hname hu.2).bind fun _ _ s₄ t₄ h₄ hk₄ _ => ?_
  exact .pure h₄ ⟨rfl, hu.2.mono hk₄.size_le⟩

/-- A property set to a value, which is the value of the whole. -/
theorem setMember {v value : Value} {name : Units} {s t : Store}
    (h : Store.Twin everywhere 0 ρ s t) (hvalue : value.Below s.size) :
    Tied 0 ρ (Value.Paired ρ)
      (do setProperty v name value
          return value)
      (do setProperty (v.moved ρ) name (value.moved ρ)
          return value.moved ρ) s t := by
  refine (Tied.setProperty h v name (fun _ _ => by omega) hvalue).bind
    fun _ _ s₁ t₁ h₁ hk₁ _ => ?_
  exact .pure h₁ ⟨rfl, hvalue.mono hk₁.size_le⟩

theorem assignMember (hc : call.Steady m ρ) {e key f : Expression} (op : Option BinaryOperator)
    (he : e.Steady m ρ call) (hkey : key.Steady m ρ call) (hf : f.Steady m ρ call) :
    (Expression.assignMember e key op f).Steady m ρ call := by
  intro s t frame h hframe
  rw [Expression.targets] at hframe
  -- What may write to members may write to any.
  have hm : m = 0 := hframe.writable .member List.mem_cons_self
  subst hm
  have hall := hframe.tail
  have hright := hall.right
  simp only [WebScript.evaluate]
  refine he.operands hkey h hall.left fun {v k s₁ t₁} h₁ hk₁ _ hk => ?_
  rw [Value.isNothing_moved]
  split
  · exact .failure_bind h₁
  · refine (hc.toText h₁ hk).bind fun name name' s₂ t₂ h₂ hk₂ hname => ?_
    rw [hname]
    have hf₂ := hright.keeps (hk₁.trans hk₂)
    cases op with
    | none =>
        refine (hf h₂ hf₂).bind fun x y s₃ t₃ h₃ _ hxy => ?_
        rw [hxy.1]
        exact setMember h₃ hxy.2
    | some op =>
        refine (Tied.property h₂ v name).bind fun old old' s₃ t₃ h₃ hk₃ hold => ?_
        refine (hf h₃ (hf₂.keeps hk₃)).bind fun x y s₄ t₄ h₄ hk₄ hxy => ?_
        rw [hold.1, hxy.1]
        refine (hc.compute op h₄ (hold.2.mono hk₄.size_le) hxy.2).bind
          fun u u' s₅ t₅ h₅ _ hu => ?_
        rw [hu.1]
        exact setMember h₅ hu.2

end Expression.Steady

namespace Caller.Steady

variable {m : Nat} {ρ : Nat → Nat} {call : Caller} {s t : Store} {frame : Frame}

mutual

theorem evaluate (hc : call.Steady m ρ) : ∀ e : Expression, e.Steady m ρ call
  | .null | .boolean _ | .number _ | .text _ => by
      intro s t frame h hf
      simp only [WebScript.evaluate]
      exact .pure_value h rfl
  | .this => by
      intro s t frame h hf
      simp only [WebScript.evaluate]
      exact .pure h ⟨rfl, hf.self⟩
  | .name n => by
      intro s t frame h hf
      simp only [WebScript.evaluate]
      exact .readName h frame n
  | .array items => by
      intro s t frame h hf
      rw [Expression.targets] at hf
      simp only [WebScript.evaluate]
      refine (evaluateItems hc 0 items h hf).bind fun ps qs s' t' h' _ hpq => ?_
      rw [hpq.1]
      exact (Tied.allocateObject h' (.array items.length) .array (Or.inr ⟨_, rfl⟩) hpq.2).bind
        fun a b s'' t'' h'' _ hab => .pure h'' hab.1
  | .object entries => by
      intro s t frame h hf
      rw [Expression.targets] at hf
      simp only [WebScript.evaluate]
      refine (Tied.allocateObject h .plain .object (Or.inl rfl)
        fun _ hp => absurd hp List.not_mem_nil).bind
        fun a b s' t' h' hk hab => ?_
      rw [hab.1.1]
      refine (evaluateEntries hc entries h' (hf.keeps hk) (fun c hc => ?_)).bind
        fun _ _ s'' t'' h'' hk' _ => ?_
      · rw [← Option.some.inj hc]
        exact hab.2
      · exact .pure h'' ⟨rfl, hab.1.2.mono hk'.size_le⟩
  | .function own parameters body => Expression.Steady.function own parameters body
  | .arrow parameters body => Expression.Steady.arrow parameters body
  | .member e key => (evaluate hc e).member hc (evaluate hc key)
  | .call callee arguments => by
      -- A member is called on its object, and everything else on nothing.
      by_cases hmember : ∃ e key, callee = .member e key
      · cases callee with
        | member e key =>
            exact (evaluate hc e).callMember hc (evaluate hc key) (evaluateAll hc arguments)
        | _ => exact absurd hmember (by simp only [reduceCtorEq, exists_false, not_false_eq_true])
      · exact (evaluate hc callee).callValue hc (fun e key he => hmember ⟨e, key, he⟩)
          (evaluateAll hc arguments)
  | .unary op e => (evaluate hc e).unary hc op
  | .binary op e f => (evaluate hc e).binary hc op (evaluate hc f)
  | .both e f => (evaluate hc e).both (evaluate hc f)
  | .either e f => (evaluate hc e).either (evaluate hc f)
  | .conditional c e f => (evaluate hc c).conditional (evaluate hc e) (evaluate hc f)
  | .sequence e f => (evaluate hc e).sequence (evaluate hc f)
  | .assignName n none e => (evaluate hc e).assignName n
  | .assignName n (some op) e => (evaluate hc e).updateName hc n op
  | .assignMember e key op f =>
      (evaluate hc e).assignMember hc op (evaluate hc key) (evaluate hc f)

theorem evaluateAll (hc : call.Steady m ρ) : ∀ es : List Expression, AllSteady m ρ call es
  | [] => by
      intro s t frame h hf
      simp only [WebScript.evaluateAll]
      exact .pure h ⟨rfl, fun _ hv => absurd hv List.not_mem_nil⟩
  | e :: rest => by
      intro s t frame h hf
      rw [allTargets] at hf
      simp only [WebScript.evaluateAll]
      refine (evaluate hc e h hf.left).bind
        fun v w s' t' h' hk hvw => ?_
      refine (evaluateAll hc rest h' (hf.right.keeps hk)).bind
        fun vs ws s'' t'' h'' hk' hvws => ?_
      rw [hvw.1, hvws.1]
      exact .pure h'' ⟨rfl, List.forall_mem_cons.mpr ⟨hvw.2.mono hk'.size_le, hvws.2⟩⟩

theorem evaluateItems (hc : call.Steady m ρ) : ∀ (i : Nat) (items : List (Option Expression))
    {s t : Store} {frame : Frame}, Store.Twin everywhere m ρ s t →
    frame.Ready m s (itemTargets items) →
    Tied m ρ (EntriesPaired ρ) (WebScript.evaluateItems call frame i items)
      (WebScript.evaluateItems call (frame.moved ρ) i items) s t
  | i, [], s, t, frame, h, hf => by
      simp only [WebScript.evaluateItems]
      exact .pure h ⟨rfl, fun _ hp => absurd hp List.not_mem_nil⟩
  | i, none :: rest, s, t, frame, h, hf => by
      rw [itemTargets] at hf
      simp only [WebScript.evaluateItems]
      -- A hole is no property, so the next item only counts one further.
      exact evaluateItems hc (i + 1) rest h hf
  | i, some e :: rest, s, t, frame, h, hf => by
      rw [itemTargets] at hf
      simp only [WebScript.evaluateItems]
      refine (evaluate hc e h hf.left).bind
        fun v w s' t' h' hk hvw => ?_
      refine (evaluateItems hc (i + 1) rest h'
        (hf.right.keeps hk)).bind
        fun ps qs s'' t'' h'' hk' hpq => ?_
      rw [hvw.1, hpq.1]
      exact .pure h'' ⟨rfl, List.forall_mem_cons.mpr ⟨hvw.2.mono hk'.size_le, hpq.2⟩⟩

theorem evaluateEntries (hc : call.Steady m ρ) {target : Value} :
    ∀ (entries : List (Units × Expression)) {s t : Store} {frame : Frame},
    Store.Twin everywhere m ρ s t → frame.Ready m s (entryTargets entries) →
    (∀ a, target.address? = some a → m ≤ a) →
    Tied m ρ Same (WebScript.evaluateEntries call frame target entries)
      (WebScript.evaluateEntries call (frame.moved ρ) (target.moved ρ) entries) s t
  | [], s, t, frame, h, hf, hm => by
      simp only [WebScript.evaluateEntries]
      exact .pure h rfl
  | (name, e) :: rest, s, t, frame, h, hf, hm => by
      rw [entryTargets] at hf
      have he := hf.left
      simp only [WebScript.evaluateEntries]
      -- A function without a name is named after the field, before it is stored there.
      refine (Tied.nameable h he (evaluate hc e h he)).bind fun v w s₁ t₁ h₁ hk₁ hvw => ?_
      rw [hvw.1.1]
      refine (Tied.nameAfter h₁ e name hvw.2).bind fun _ _ s₂ t₂ h₂ hk₂ _ => ?_
      refine (Tied.setProperty h₂ target name hm (hvw.1.2.mono hk₂.size_le)).bind
        fun _ _ s₃ t₃ h₃ hk₃ _ => ?_
      exact evaluateEntries hc rest h₃
        (hf.right.keeps (hk₁.trans (hk₂.trans hk₃))) hm

end

theorem declareAll (hc : call.Steady m ρ) (kind : DeclarationKind) :
    ∀ (bindings : List (Units × Option Expression)) {s t : Store} {frame : Frame},
    Store.Twin everywhere m ρ s t → frame.Ready m s (bindingTargets bindings) →
    Tied m ρ Same (WebScript.declareAll call frame kind bindings)
      (WebScript.declareAll call (frame.moved ρ) kind bindings) s t := by
  intro bindings
  induction bindings with
  | nil =>
      intro s t frame h hf
      exact .pure h rfl
  | cons binding rest ih =>
      intro s t frame h hf
      rcases binding with ⟨name, _ | e⟩
      · rw [bindingTargets] at hf
        -- A variable that may have been declared before keeps its value, any other one is settled.
        have hname := hf.head
        have hrest := hf.tail
        simp only [WebScript.declareAll]
        split
        · refine (Tied.settle h hname (Value.below_of_no_address rfl)).bind
            fun _ _ s₁ t₁ h₁ hk₁ _ => ?_
          exact ih h₁ (hrest.keeps hk₁)
        · exact ih h hrest
      · rw [bindingTargets] at hf
        have hname := hf.head
        have hall := hf.tail
        have he := hall.left
        have hrest := hall.right
        simp only [WebScript.declareAll]
        refine (Tied.nameable h he (evaluate hc e h he)).bind fun v w s₁ t₁ h₁ hk₁ hvw => ?_
        rw [hvw.1.1]
        refine (Tied.nameAfter h₁ e name hvw.2).bind fun _ _ s₂ t₂ h₂ hk₂ _ => ?_
        have hname₂ := hname.keeps (hk₁.trans hk₂)
        have hv := hvw.1.2.mono hk₂.size_le
        split
        · refine (Tied.writeName h₂ hname₂ hv).bind fun _ _ s₃ t₃ h₃ hk₃ _ => ?_
          exact ih h₃ (hrest.keeps (hk₁.trans (hk₂.trans hk₃)))
        · refine (Tied.settle h₂ hname₂ hv).bind fun _ _ s₃ t₃ h₃ hk₃ _ => ?_
          exact ih h₃ (hrest.keeps (hk₁.trans (hk₂.trans hk₃)))

mutual

theorem execute (hc : call.Steady m ρ) : ∀ (x : Statement) {s t : Store} {frame : Frame},
    Store.Twin everywhere m ρ s t → frame.Ready m s x.targets →
    Tied m ρ (Completion.Paired ρ) (WebScript.execute call frame x)
      (WebScript.execute call (frame.moved ρ) x) s t
  | .empty, s, t, frame, h, hf => by
      simp only [WebScript.execute]
      exact .pure h .none
  | .expression e, s, t, frame, h, hf => by
      rw [Statement.targets] at hf
      simp only [WebScript.execute]
      refine (evaluate hc e h hf).bind fun v w s' t' h' _ hvw => ?_
      rw [hvw.1]
      exact .pure h' (.some hvw.2)
  | .declare kind bindings, s, t, frame, h, hf => by
      rw [Statement.targets] at hf
      simp only [WebScript.execute]
      exact (hc.declareAll kind bindings h hf).bind fun _ _ s' t' h' _ _ => .pure h' .none
  | .function name parameters body, s, t, frame, h, hf => by
      simp only [WebScript.execute]
      exact .pure h .none
  | .block body, s, t, frame, h, hf => by
      rw [Statement.targets] at hf
      simp only [WebScript.execute]
      -- The scope of the block is new, so what the block declares may be written to.
      refine (Tied.openBlock h hf).bind fun inner inner' s' t' h' _ hinner => ?_
      rw [hinner.1]
      exact executeAll hc body h' hinner.2 fun _ hv => by cases hv
  | .branch c yes no, s, t, frame, h, hf => by
      rw [Statement.targets] at hf
      have hleft := hf.left
      simp only [WebScript.execute]
      refine (evaluate hc c h hleft.left).bind fun v w s₁ t₁ h₁ hk₁ hvw => ?_
      rw [hvw.1, Value.truth_moved]
      split
      · exact (execute hc yes h₁ (hleft.right.keeps hk₁)).bind fun _ _ _ _ h₂ _ hxy =>
          .branch h₂ hxy
      · exact (execute hc no h₁ (hf.right.keeps hk₁)).bind fun _ _ _ _ h₂ _ hxy => .branch h₂ hxy
  | .giveBack none, s, t, frame, h, hf => by
      simp only [WebScript.execute]
      exact .pure h (.returned (Value.below_of_no_address rfl))
  | .giveBack (some e), s, t, frame, h, hf => by
      rw [Statement.targets] at hf
      simp only [WebScript.execute]
      refine (evaluate hc e h hf).bind fun v w s' t' h' _ hvw => ?_
      rw [hvw.1]
      exact .pure h' (.returned hvw.2)
  | .throw e, s, t, frame, h, hf => by
      rw [Statement.targets] at hf
      simp only [WebScript.execute]
      exact (evaluate hc e h hf).discard.bind fun _ _ s' t' h' _ _ => .failure h'

theorem executeAll (hc : call.Steady m ρ) : ∀ (body : List Statement) {s t : Store}
    {frame : Frame} {last : Option Value}, Store.Twin everywhere m ρ s t →
    frame.Ready m s (bodyTargets body) → (∀ v, last = some v → v.Below s.size) →
    Tied m ρ (Completion.Paired ρ) (WebScript.executeAll call frame last body)
      (WebScript.executeAll call (frame.moved ρ) (last.map (Value.moved ρ)) body) s t
  | [], s, t, frame, last, h, hf, hlast => by
      simp only [WebScript.executeAll]
      exact .pure h (.normal hlast)
  | x :: rest, s, t, frame, last, h, hf, hlast => by
      rw [bodyTargets] at hf
      simp only [WebScript.executeAll]
      refine (execute hc x h hf.left).bind
        fun c d s' t' h' hk hcd => ?_
      have hrest := hf.right.keeps hk
      cases hcd with
      | returned hv => exact .pure h' (.returned hv)
      | normal hv =>
          rename_i v
          -- A statement without a value leaves that of the one before it.
          cases v with
          | none => exact executeAll hc rest h' hrest fun w hw => (hlast w hw).mono hk.size_le
          | some v => exact executeAll hc rest h' hrest hv

end

/-- A call of a closure. A function that takes its own `this` sees the global object
    instead of nothing. -/
theorem invokeClosure (hc : call.Steady m ρ) (h : Store.Twin everywhere m ρ s t) {f : Value}
    {function : Function} {scopes : List Nat} {captured self : Value} {arguments : List Value}
    (hf : s.closure? f = some (function, scopes, captured)) (hself : self.Below s.size)
    (hargs : ∀ v ∈ arguments, v.Below s.size) :
    Tied m ρ (Value.Paired ρ)
      (do let frame ← WebScript.openFunction function scopes
            (if function.isArrow then captured
              else if self.isNothing then .reference Store.globalObject
              else self) arguments
          match ← WebScript.executeAll call frame none function.body with
          | .returned v => return v
          | .normal _ => return .undefined)
      (do let frame ← WebScript.openFunction function (scopes.map ρ)
            (if function.isArrow then captured.moved ρ
              else if (self.moved ρ).isNothing then .reference Store.globalObject
              else self.moved ρ) (arguments.map (Value.moved ρ))
          match ← WebScript.executeAll call frame none function.body with
          | .returned v => return v
          | .normal _ => return .undefined) s t := by
  rcases h.sound.below_closure? hf with ⟨hscopes, hcaptured, hwritable⟩
  -- An arrow has captured its `this`, and elsewhere the object of globals stands in for nothing.
  have hthis : (if function.isArrow then captured
      else if self.isNothing then .reference Store.globalObject else self).Below s.size := by
    split
    · exact hcaptured
    · split
      · rcases h.sound.globalObject with ⟨_, _, hcell⟩
        exact Value.below_reference (Store.lt_size_of_getElem? hcell)
      · exact hself
  have hmoved : (if function.isArrow then captured.moved ρ
      else if (self.moved ρ).isNothing then .reference Store.globalObject else self.moved ρ)
      = (if function.isArrow then captured
        else if self.isNothing then .reference Store.globalObject else self).moved ρ := by
    rw [Value.isNothing_moved]
    split
    · rfl
    · split
      · rw [Value.moved_reference, h.alike.globalObject]
      · rfl
  rw [hmoved]
  refine (Tied.openFunction h ⟨hscopes, hthis, hwritable⟩ hargs).bind
    fun frame frame' s₁ t₁ h₁ _ hframe => ?_
  rw [hframe.1]
  refine (hc.executeAll function.body h₁ hframe.2 fun _ hv => by cases hv).bind
    fun c d s₂ t₂ h₂ _ hcd => ?_
  cases hcd with
  | returned hv => exact .pure h₂ ⟨rfl, hv⟩
  | normal _ => exact .pure_value h₂ rfl

/-- Calls of functions are steady if the calls inside them are. -/
theorem invoke (hc : call.Steady m ρ) : Caller.Steady m ρ (WebScript.invoke call) := by
  intro s t h f self arguments hself hargs
  -- A method is not in the store, and moving a value makes no method of it.
  by_cases hmethod : ∃ family name, f = .method family name
  · rcases hmethod with ⟨family, name, hf⟩
    subst hf
    exact hc.callMethod h family name hself hargs
  · have hne : ∀ family name, f ≠ .method family name :=
      fun family name hf => hmethod ⟨family, name, hf⟩
    have hne' : ∀ family name, f.moved ρ ≠ .method family name := by
      intro family name hf
      cases f <;> simp only [Value.moved, reduceCtorEq] at hf
      exact hne _ _ rfl
    have hclosure := h.alike.closure? f.in_everywhere
    unfold WebScript.invoke
    split
    · exact absurd rfl (hne _ _)
    · refine .get_bind ?_
      rw [hclosure]
      rcases hf : s.closure? f with _ | ⟨function, scopes, captured⟩
      · exact .failure h
      · exact hc.invokeClosure h hf hself hargs

end Caller.Steady

theorem steady_callAt {m : Nat} {ρ : Nat → Nat} (depth : Nat) :
    Caller.Steady m ρ (callAt depth) := by
  induction depth with
  | zero =>
      intro s t h _ _ _ _ _
      exact .failure h
  | succ depth ih => exact ih.invoke

theorem steady_callFunction {m : Nat} {ρ : Nat → Nat} : Caller.Steady m ρ callFunction :=
  steady_callAt deepestCall

end WebScript

end MapStyling
