import MapStyling.EmbeddedScript.Evaluation

/-!
# Local Variables of Embedded Scripts

Scripts that assign to nothing but what they declare leave their scope as it was, behind
variables of their own.

While such a script runs, its scope is the one that it started in with its own
variables in front. Assignment changes the first variable of a name, so a name
that the script has declared stands for one of the variables in front. A block
takes its variables away when it ends. When the script ends early, some of them
are left, and closing the scope of the script takes those away too.

A function sees its parameters and nothing else, so calls do not matter.

## Main definitions

* `Statement.isLocal`, `bodyIsLocal`: Assignments to declared names only.
* `Scope.Over`: A scope with variables in front of another.
* `Local`: Runs that change nothing but the variables in front.

## Theorems

* `local_evaluate`, `local_executeAll`: Evaluation of local terms is local.
* `suffix_of_local`: A local script ends with its scope behind its own variables.
-/

namespace MapStyling

namespace EmbeddedScript

/-- Names that a statement declares. -/
def Statement.declares : Statement → List String
  | .declare n _ _ => [n]
  | _ => []

/-- The names that are declared after statements, the latest first. -/
def declaredAfter (names : List String) : List Statement → List String
  | [] => names
  | s :: rest => declaredAfter (s.declares ++ names) rest

mutual

/-- Whether an expression assigns to declared names only. -/
def Expression.isLocal (names : List String) : Expression → Bool
  | .literal _ | .name _ => true
  | .array items => areLocal names items
  | .map entries => entriesAreLocal names entries
  | .element e key => e.isLocal names && key.isLocal names
  | .call _ arguments => areLocal names arguments
  | .callOn e _ arguments => e.isLocal names && areLocal names arguments
  | .unary _ e => e.isLocal names
  | .binary _ e f | .both e f | .either e f => e.isLocal names && f.isLocal names
  | .block body => bodyIsLocal names body
  | .branch c e f => c.isLocal names && e.isLocal names && f.isLocal names

def areLocal (names : List String) : List Expression → Bool
  | [] => true
  | e :: rest => e.isLocal names && areLocal names rest

def entriesAreLocal (names : List String) : List (String × Expression) → Bool
  | [] => true
  | (_, e) :: rest => e.isLocal names && entriesAreLocal names rest

/-- Whether a statement assigns to declared names only. -/
def Statement.isLocal (names : List String) : Statement → Bool
  | .expression e | .declare _ _ e | .giveBack e | .throw e => e.isLocal names
  | .assign n path _ e => names.contains n && areLocal names path && e.isLocal names

/-- Whether statements assign to names only that are declared before or among them. -/
def bodyIsLocal (names : List String) : List Statement → Bool
  | [] => true
  | s :: rest => s.isLocal names && bodyIsLocal (s.declares ++ names) rest

end

/-- A scope with variables of some names in front of another. -/
def Scope.Over (base : Scope) (names : List String) (s : Scope) : Prop :=
  ∃ locals : Scope, s = locals ++ base ∧ locals.map Prod.fst = names

namespace Scope

variable {base s : Scope} {names : List String}

theorem Over.refl (base : Scope) : base.Over [] base := ⟨[], rfl, rfl⟩

theorem Over.length (h : base.Over names s) : s.length = names.length + base.length := by
  rcases h with ⟨locals, hs, hnames⟩
  rw [hs, List.length_append, ← hnames, List.length_map]

theorem Over.cons (h : base.Over names s) (n : String) (slot : Slot) :
    base.Over (n :: names) ((n, slot) :: s) := by
  rcases h with ⟨locals, hs, hnames⟩
  exact ⟨(n, slot) :: locals, by rw [hs, List.cons_append], by rw [List.map_cons, hnames]⟩

/-- What is assigned to a name in front is in front. -/
theorem Over.put (h : base.Over names s) {n : String} (hn : n ∈ names) (slot : Slot) :
    base.Over names (Entries.put n slot s) := by
  rcases h with ⟨locals, hs, hnames⟩
  rw [← hnames] at hn ⊢
  exact ⟨Entries.put n slot locals, by rw [hs, Entries.put_append hn], Entries.map_fst_put hn⟩

/-- A scope that is cut back to what it was has the variables that it had. -/
theorem Over.back {more : List String} (h : base.Over (more ++ names) s) :
    base.Over names (back (names.length + base.length) s) := by
  rcases h with ⟨locals, hs, hnames⟩
  have hlength : locals.length = more.length + names.length := by
    have hmap : (locals.map Prod.fst).length = locals.length := List.length_map ..
    rw [← hmap, hnames, List.length_append]
  refine ⟨locals.drop more.length, ?_, ?_⟩
  · rw [Scope.back, hs, List.length_append, hlength]
    rw [show more.length + names.length + base.length - (names.length + base.length)
      = more.length by omega, List.drop_append_of_le_length (by omega)]
  · rw [List.map_drop, hnames, List.drop_left]

end Scope

/-- A run that, in any scope with variables of some names in front of a base, changes
    nothing of the base, and has variables of certain names in front if it goes on. -/
def Local {α : Type} (base : Scope) (names after : List String) (r : Run α) : Prop :=
  ∀ s, base.Over names s → match r.run.run s with
    | (.ok _, t) => base.Over after t
    | (.error _, t) => ∃ left, base.Over left t

theorem run_bind {α β : Type} (r : Run α) (f : α → Run β) (s : Scope) :
    (r >>= f).run.run s = match r.run.run s with
      | (.ok a, t) => (f a).run.run t
      | (.error exit, t) => (.error exit, t) := by
  change (ExceptT.bindCont f (r.run.run s).1).run (r.run.run s).2 = _
  rcases r.run.run s with ⟨_ | _, t⟩ <;> rfl

namespace Local

variable {α β : Type} {base : Scope} {names middle after : List String}

theorem pure (a : α) : Local base names names (Pure.pure a) :=
  fun _ hs => hs

theorem throw (exit : Exit) : Local base names after (MonadExcept.throw exit : Run α) :=
  fun _ hs => ⟨names, hs⟩

theorem bind {r : Run α} {f : α → Run β} (hr : Local base names middle r)
    (hf : ∀ a, Local base middle after (f a)) : Local base names after (r >>= f) := by
  intro s hs
  have hfirst := hr s hs
  rw [run_bind]
  generalize r.run.run s = result at hfirst ⊢
  rcases result with ⟨exit | a, t⟩
  · exact hfirst
  · exact hf a t hfirst

theorem discard {r : Run α} (hr : Local base names after r) :
    Local base names after (Functor.discard r) :=
  hr.bind fun _ => pure ()

theorem orFault (a : Option α) : Local base names names (EmbeddedScript.orFault a) := by
  cases a with
  | none => exact throw .fault
  | some a => exact pure a

theorem get : Local base names names (MonadState.get : Run Scope) :=
  fun _ hs => hs

theorem change {f : Scope → Scope} (hf : ∀ s, base.Over names s → base.Over after (f s)) :
    Local base names after (modify f : Run PUnit) :=
  fun s hs => hf s hs

theorem readName (n : String) : Local base names names (EmbeddedScript.readName n) :=
  get.bind fun _ => (orFault _).bind fun slot => pure slot.value

/-- An assignment to a declared name. -/
theorem changeName {n : String} (hn : n ∈ names) (f : Value → Option Value) :
    Local base names names (EmbeddedScript.changeName n f) := by
  unfold EmbeddedScript.changeName
  refine get.bind fun s => (orFault _).bind fun slot => ?_
  have hrest : ∀ u : PUnit, Local base names names (do
      let v ← EmbeddedScript.orFault (f slot.value)
      modify (Entries.put n ⟨v, false⟩) : Run Unit) := fun _ =>
    (orFault _).bind fun v => change fun s hs => hs.put hn ⟨v, false⟩
  split
  · exact (throw .fault).bind hrest
  · exact hrest ⟨⟩

/-- A block takes away what was declared in it. -/
theorem block {more : List String} {r : Run α} (hr : Local base names (more ++ names) r) :
    Local base names names (do
      let length := (← MonadState.get).length
      let v ← r
      modify (Scope.back length)
      return v : Run α) := by
  intro s hs
  have hlength : s.length = names.length + base.length := hs.length
  have hbody := hr s hs
  change match (r >>= fun v => (modify (Scope.back s.length) >>= fun _ =>
    Pure.pure v)).run.run s with
    | (.ok _, t) => base.Over names t
    | (.error _, t) => ∃ left, base.Over left t
  rw [run_bind, hlength]
  generalize r.run.run s = result at hbody ⊢
  rcases result with ⟨exit | a, t⟩
  · exact hbody
  · exact Scope.Over.back hbody

end Local

/-- Statements leave the names that were declared before them where they were. -/
theorem exists_declaredAfter (body : List Statement) (names : List String) :
    ∃ more, declaredAfter names body = more ++ names := by
  induction body generalizing names with
  | nil => exact ⟨[], rfl⟩
  | cons s rest ih =>
      rcases ih (s.declares ++ names) with ⟨more, hmore⟩
      exact ⟨more ++ s.declares, by rw [declaredAfter, hmore, List.append_assoc]⟩

/-- A statement that can be left out declares nothing. -/
theorem declares_of_isPure {s : Statement} (h : s.isPure = true) : s.declares = [] := by
  cases s with
  | expression e => rfl
  | _ => exact absurd h Bool.false_ne_true

section

variable (call : Caller) {base : Scope}

mutual

/-- Evaluation of local expressions is local. -/
theorem local_evaluate (names : List String) : ∀ (e : Expression), e.isLocal names = true →
    Local base names names (evaluate call e)
  | .literal v, _ => by
      rw [evaluate]
      exact .pure v
  | .name n, _ => by
      rw [evaluate]
      exact .readName n
  | .array items, h => by
      rw [Expression.isLocal] at h
      rw [evaluate]
      exact (local_evaluateAll names items h).bind fun values => .pure _
  | .map entries, h => by
      rw [Expression.isLocal] at h
      rw [evaluate]
      exact (local_evaluateEntries names entries h).bind fun values => .pure _
  | .element e key, h => by
      rw [Expression.isLocal, Bool.and_eq_true] at h
      rw [evaluate]
      exact (local_evaluate names e h.1).bind fun c =>
        (local_evaluate names key h.2).bind fun k => .orFault _
  | .call name arguments, h => by
      rw [Expression.isLocal] at h
      rw [evaluate]
      exact (local_evaluateAll names arguments h).bind fun values => .orFault _
  | .callOn e name arguments, h => by
      rw [Expression.isLocal, Bool.and_eq_true] at h
      rw [evaluate]
      exact (local_evaluate names e h.1).bind fun v =>
        (local_evaluateAll names arguments h.2).bind fun values =>
          (Local.orFault _).bind fun f => .orFault _
  | .unary op e, h => by
      rw [Expression.isLocal] at h
      rw [evaluate]
      exact (local_evaluate names e h).bind fun v => .orFault _
  | .binary op e f, h => by
      rw [Expression.isLocal, Bool.and_eq_true] at h
      rw [evaluate]
      exact (local_evaluate names e h.1).bind fun a =>
        (local_evaluate names f h.2).bind fun b => .orFault _
  | .both e f, h => by
      rw [Expression.isLocal, Bool.and_eq_true] at h
      rw [evaluate]
      refine (local_evaluate names e h.1).bind fun v => (Local.orFault _).bind fun b => ?_
      cases b with
      | true =>
          exact (local_evaluate names f h.2).bind fun w => (Local.orFault _).bind fun c => .pure _
      | false => exact .pure _
  | .either e f, h => by
      rw [Expression.isLocal, Bool.and_eq_true] at h
      rw [evaluate]
      refine (local_evaluate names e h.1).bind fun v => (Local.orFault _).bind fun b => ?_
      cases b with
      | true => exact .pure _
      | false =>
          exact (local_evaluate names f h.2).bind fun w => (Local.orFault _).bind fun c => .pure _
  | .block body, h => by
      rw [Expression.isLocal] at h
      rw [evaluate]
      -- The block leaves what it declares in front, and that is taken away behind it.
      have hbody := local_executeAll names body .unit h
      rcases exists_declaredAfter body names with ⟨more, hmore⟩
      rw [hmore] at hbody
      exact hbody.block
  | .branch c e f, h => by
      rw [Expression.isLocal, Bool.and_eq_true, Bool.and_eq_true] at h
      rw [evaluate]
      refine (local_evaluate names c h.1.1).bind fun v => (Local.orFault _).bind fun b => ?_
      cases b with
      | true => exact local_evaluate names e h.1.2
      | false => exact local_evaluate names f h.2

theorem local_evaluateAll (names : List String) : ∀ (es : List Expression),
    areLocal names es = true → Local base names names (evaluateAll call es)
  | [], _ => by
      rw [evaluateAll]
      exact .pure []
  | e :: rest, h => by
      rw [areLocal, Bool.and_eq_true] at h
      rw [evaluateAll]
      exact (local_evaluate names e h.1).bind fun v =>
        (local_evaluateAll names rest h.2).bind fun values => .pure _

theorem local_evaluateEntries (names : List String) : ∀ (es : List (String × Expression)),
    entriesAreLocal names es = true → Local base names names (evaluateEntries call es)
  | [], _ => by
      rw [evaluateEntries]
      exact .pure []
  | (name, e) :: rest, h => by
      rw [entriesAreLocal, Bool.and_eq_true] at h
      rw [evaluateEntries]
      exact (local_evaluate names e h.1).bind fun v =>
        (local_evaluateEntries names rest h.2).bind fun values => .pure _

/-- A local statement puts what it declares in front. -/
theorem local_execute (names : List String) : ∀ (s : Statement), s.isLocal names = true →
    Local base names (s.declares ++ names) (execute call s)
  | .expression e, h => by
      rw [Statement.isLocal] at h
      rw [execute]
      exact local_evaluate names e h
  | .declare n isConstant e, h => by
      rw [Statement.isLocal] at h
      rw [execute]
      exact (local_evaluate names e h).bind fun v =>
        (Local.change fun s hs => hs.cons n ⟨v, isConstant⟩).bind fun _ => .pure _
  | .assign n path op e, h => by
      -- A local assignment is one to a name that was declared before it.
      simp only [Statement.isLocal, Bool.and_eq_true, List.contains_iff_mem] at h
      rw [execute]
      exact (local_evaluate names e h.2).bind fun v =>
        (local_evaluateAll names path h.1.2).bind fun keys =>
          (Local.changeName h.1.1 _).bind fun _ => .pure _
  | .giveBack e, h => by
      rw [Statement.isLocal] at h
      rw [execute]
      exact (local_evaluate names e h).bind fun v => .throw _
  | .throw e, h => by
      rw [Statement.isLocal] at h
      rw [execute]
      exact (local_evaluate names e h).discard.bind fun _ => .throw _

theorem local_executeAll (names : List String) : ∀ (body : List Statement) (last : Value),
    bodyIsLocal names body = true →
    Local base names (declaredAfter names body) (executeAll call last body)
  | [], last, _ => by
      rw [executeAll]
      exact .pure last
  | s :: rest, last, h => by
      rw [bodyIsLocal, Bool.and_eq_true] at h
      rw [executeAll, declaredAfter]
      split
      · next hskip =>
        rw [Bool.and_eq_true] at hskip
        rw [declares_of_isPure hskip.1] at h ⊢
        exact local_executeAll names rest last h.2
      · exact (local_execute names s h.1).bind fun v =>
          local_executeAll (s.declares ++ names) rest v h.2

end

end

/-- Statements that are run to their end leave a scope behind whatever they come to. -/
theorem run_finish (call : Caller) (body : List Statement) (scope : Scope) :
    ((finish call body).run scope).2 = ((executeAll call .unit body).run.run scope).2 := by
  unfold finish
  rw [StateT.run_bind]
  generalize (executeAll call .unit body).run.run scope = r
  rcases r with ⟨⟨_ | v⟩ | v, left⟩ <;> rfl

/-- A local script ends with its scope behind what it declares, however it ends. -/
theorem suffix_of_local {s : Script} (h : bodyIsLocal [] s.body = true) (scope : Scope) :
    scope <:+ ((run s).run scope).2 := by
  have hbody := local_executeAll (callAt s.definitions deepestCall) [] s.body .unit h scope
    (Scope.Over.refl scope)
  rw [run, run_finish]
  generalize (executeAll (callAt s.definitions deepestCall) .unit s.body).run.run scope
    = r at hbody ⊢
  have hover : ∃ left, scope.Over left r.2 := by
    rcases r with ⟨exit | v, t⟩
    · exact hbody
    · exact ⟨_, hbody⟩
  rcases hover with ⟨_, locals, heq, _⟩
  exact ⟨locals, heq.symm⟩

end EmbeddedScript

end MapStyling
