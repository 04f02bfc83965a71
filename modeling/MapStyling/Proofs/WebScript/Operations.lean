import MapStyling.Proofs.WebLanguage.Making
import MapStyling.Proofs.WebScript.Globals
import MapStyling.WebScript.Language

/-!
# The Interpreter as a Language

What operations of the interpreter of web scripts do to its store, from outside of it.

The values that somebody holds are copied to another store by moving their addresses, and
an operation on the copies comes to a copy of what it comes to on the values. Nobody who
goes by positions sees the addresses, so all that is shown is the same. The copy may be
one of a part of the store only, namely of what somebody has made, as long as nothing else
is asked for.

## Main definitions

* `Related`: A holding and its copy in another store.
* `Inert`, `Quiet`: Sources whose evaluation, and the calls of whose functions, write to
  nothing that is shared.
* `Comes`: What a source comes to in a store and in its copy.

## Theorems

* `Related.make`, `Related.perform`: Operations on a holding and on its copy.
* `sound_common`: What the language comes to.
-/

namespace MapStyling

open WebLanguage

namespace WebScript

/-- A holding, and its copy in another store. -/
structure Related (D : Nat → Prop) (m : Nat) (ρ : Nat → Nat) (h h' : Holding language) : Prop where
  twin : Store.Twin D m ρ h.context h'.context
  values : h'.values = h.values.map (Value.moved ρ)
  held : ∀ v ∈ h.values, Value.Below (Store.size h.context) v ∧ Value.In D v

/-- What a store was made into: nothing is gone, functions are what they were, and scopes below
    a mark are as they were. -/
structure Store.Follows (m : Nat) (s t : Store) : Prop where
  keeps : s.Keeps 0 t
  scopes : ∀ (a : Nat) (vs : List (Units × Variable)), a < m → s.cells[a]? = some (.scope vs) →
    t.cells[a]? = some (.scope vs)

/-- Sources that run nothing when they are evaluated. -/
def Inert (source : String) : Prop := isInert source = true

/-- Inert sources whose functions write to nothing that they share. -/
def Quiet (source : String) : Prop := isQuiet source = true

/-- Two ways for an operation to end, in a store and in its copy. -/
structure Ends (D : Nat → Prop) (m : Nat) (ρ : Nat → Nat) (s : Store)
    (r r' : Reply × Value × Store) : Prop where
  reply : r'.1 = r.1
  twin : Store.Twin D m ρ r.2.2 r'.2.2
  value : r'.2.1 = r.2.1.moved ρ
  below : r.2.1.Below r.2.2.size
  inside : r.2.1.In D
  follows : s.Follows m r.2.2

namespace Store.Follows

variable {m : Nat} {s t u : Store}

theorem refl (m : Nat) (s : Store) : Follows m s s := ⟨.refl 0 s, fun _ _ _ h => h⟩

theorem trans (h : Follows m s t) (h' : Follows m t u) : Follows m s u :=
  ⟨h.keeps.trans h'.keeps, fun a vs ha hc => h'.scopes a vs ha (h.scopes a vs ha hc)⟩

/-- Cells below the mark are not touched by what keeps to it. -/
theorem of_keeps (h : s.Keeps m t) : Follows m s t :=
  ⟨⟨fun _ ha => absurd ha (Nat.not_lt_zero _), h.becomes⟩, fun a _ ha hc => (h.below a ha).trans hc⟩

end Store.Follows

section

variable {D : Nat → Prop} {m : Nat} {ρ : Nat → Nat} {h h' : Holding language}

namespace Related

/-- The copy of a value that is held. -/
theorem value (hr : Related D m ρ h h') (i : Nat) : h'.value i = Value.moved ρ (h.value i) := by
  rw [Holding.value, Holding.value, hr.values, List.getElem?_map]
  rcases h.values[i]? with _ | v <;> rfl

theorem held_value (hr : Related D m ρ h h') (i : Nat) :
    Value.Below (Store.size h.context) (h.value i) ∧ Value.In D (h.value i) := by
  rcases hi : h.values[i]? with _ | v
  · rw [Holding.value, hi]
    exact ⟨Value.below_of_no_address rfl, Value.in_of_no_address rfl⟩
  · rw [Holding.value_eq hi]
    exact hr.held v (List.mem_of_getElem? hi)

/-- What is held after an operation, and its copy. -/
theorem after {o : Operation} (hr : Related D m ρ h h')
    (he : Ends D m ρ h.context (o.act h) (o.act h')) :
    (o.perform h').1 = (o.perform h).1 ∧ Related D m ρ (o.perform h).2 (o.perform h').2 ∧
      Store.Follows m h.context (o.perform h).2.context := by
  refine ⟨he.reply, ⟨he.twin, ?_, fun v hv => ?_⟩, he.follows⟩
  · change h'.values ++ [(o.act h').2.1] = (h.values ++ [(o.act h).2.1]).map (Value.moved ρ)
    rw [List.map_append, hr.values, he.value]
    rfl
  · rcases List.mem_append.mp hv with hold | hnew
    · rcases hr.held v hold with ⟨hbelow, hin⟩
      exact ⟨hbelow.mono he.follows.keeps.size_le, hin⟩
    · rw [List.mem_singleton.mp hnew]
      exact ⟨he.below, he.inside⟩

end Related

/-- An operation that leaves the store alone and gives a value that is no object. -/
theorem Ends.pure {s t : Store} (h : Store.Twin D m ρ s t) (r : Reply) {v : Value}
    (hv : v.address? = none) : Ends D m ρ s (r, v, s) (r, v, t) :=
  ⟨rfl, h, (Value.moved_of_no_address hv).symm, Value.below_of_no_address hv,
    Value.in_of_no_address hv, .refl m s⟩

/-- A new object without properties. -/
theorem Ends.newCell {s t : Store} (h : Store.Twin D m ρ s t) {shape : Shape} (family : Family)
    (hshape : shape = .plain ∨ shape = .array 0) :
    Ends D m ρ s (.done, newCell (.object shape (.common family) []) s)
      (.done, newCell (.object shape (.common family) []) t) := by
  have hcd : Cell.Alike ρ (.object shape (.common family) [])
      (.object shape (.common family) []) := by
    have halike : Cell.Alike ρ (.object shape (.common family) [])
        (.object (shape.moved ρ) ((Value.common family).moved ρ) []) := .object _ _ fun _ => rfl
    rcases hshape with rfl | rfl <;> exact halike
  have hadded := h.add hcd (fun b hb => by rcases hshape with rfl | rfl <;> cases hb) rfl
    fun f scopes self p properties heq => by rcases hshape with rfl | rfl <;> cases heq
  refine ⟨rfl, hadded, ?_, Store.Twin.below_add s _, h.in_size,
    .of_keeps (.add s _ h.sound.mark_le)⟩
  change Value.reference t.size = .reference (ρ s.size)
  rw [h.alike.move_size]

/-- A property set from outside, unless that is a fault. -/
theorem Ends.withProperty {s t : Store} (h : Store.Twin D m ρ s t) (target : Value) {v : Value}
    (name : Units) (htarget : target.In D) (hv : v.Below s.size) (hin : v.In D) :
    Ends D m ρ s (.done, .undefined, s.withProperty target name v)
      (.done, .undefined, t.withProperty (target.moved ρ) name (v.moved ρ)) := by
  have hzero : Store.Twin D 0 ρ s t := ⟨h.sound.zero, h.alike⟩
  have hset := hzero.setProperty? name (fun _ _ => Nat.zero_le _) htarget hv hin
  unfold Store.withProperty
  rcases hs : s.setProperty? target name v with _ | s' <;> rw [hs] at hset
  · generalize t.setProperty? (target.moved ρ) name (v.moved ρ) = t? at hset ⊢
    cases hset
    exact .pure h _ rfl
  · generalize t.setProperty? (target.moved ρ) name (v.moved ρ) = t? at hset ⊢
    cases hset with
    | some hst =>
      rcases h.sound.setProperty? hv hs with ⟨hsound, hkeeps⟩
      exact ⟨rfl, ⟨hsound, hst.1.alike⟩, rfl, Value.below_of_no_address rfl,
        Value.in_of_no_address rfl, hkeeps, fun _ _ _ => Store.scope_of_setProperty? hs⟩

theorem eq_of_rel {α : Type} {s : Store} {a b : Option α}
    (h : Option.Rel (Same s) a b) : b = a := by
  cases h with
  | none => rfl
  | some hab => exact congrArg some hab

/-- A value that is found in a store, and its copy. -/
theorem Ends.found {s t : Store} (h : Store.Twin everywhere m ρ s t) {v v' : Option Value}
    (hv : v' = v.map (Value.moved ρ)) (hbelow : ∀ w, v = some w → w.Below s.size) :
    Ends everywhere m ρ s (.found v.isSome, v.getD .undefined, s)
      (.found v'.isSome, v'.getD .undefined, t) := by
  rw [hv]
  refine ⟨congrArg Reply.found (Option.isSome_map ..), h, ?_, ?_, Value.in_everywhere _, .refl m s⟩
  · cases v <;> rfl
  · cases v with
    | none => exact Value.below_of_no_address rfl
    | some v => exact hbelow v rfl

/-- A run in a store and in its copy. -/
theorem Ends.of_tied {s t : Store} {r r' : Run Value} (h : Tied m ρ (Value.Paired ρ) r r' s t) :
    Ends everywhere m ρ s
      (.ended (faultOf (L := language) (orExceptionText (r.run s).1)),
        valueOf (L := language) (orExceptionText (r.run s).1), (r.run s).2)
      (.ended (faultOf (L := language) (orExceptionText (r'.run t).1)),
        valueOf (L := language) (orExceptionText (r'.run t).1), (r'.run t).2) := by
  rcases h with ⟨htwin, hkeeps, hanswers⟩
  generalize r.run s = p at htwin hkeeps hanswers
  generalize r'.run t = p' at htwin hanswers
  rcases p with ⟨a, s'⟩
  rcases p' with ⟨a', t'⟩
  cases hanswers with
  | none => exact ⟨rfl, htwin, rfl, Value.below_of_no_address rfl, Value.in_everywhere _,
      .of_keeps hkeeps⟩
  | some hab => exact ⟨rfl, htwin, hab.1, hab.2, Value.in_everywhere _, .of_keeps hkeeps⟩

/-- A source that is evaluated in a store and in its copy. -/
def Comes (D : Nat → Prop) (m : Nat) (source : String) : Prop :=
  ∀ (ρ : Nat → Nat) (s t : Store), Store.Twin D m ρ s t →
    let r := (evaluateSource source).run s
    let r' := (evaluateSource source).run t
    Ends D m ρ s (.ended (faultOf (L := language) r.1), valueOf (L := language) r.1, r.2)
      (.ended (faultOf (L := language) r'.1), valueOf (L := language) r'.1, r'.2)

/-- Values are made and filled alike on both sides, with sources that come to the same. -/
theorem Related.make {S : String → Prop} (hS : ∀ source, S source → Comes D m source)
    (hr : Related D m ρ h h') {o : Operation} (ho : o.Makes S) :
    Ends D m ρ h.context (o.act h) (o.act h') := by
  have htwin := hr.twin
  cases o with
  | constant c =>
      have hv : Value.address? (c.value : language.Value) = none := by
        cases c <;> rfl
      exact .pure htwin .done hv
  | look i =>
      have hin := (hr.held_value i).2
      have hreply : ((Operation.look i).act h').1 = ((Operation.look i).act h).1 := by
        simp only [Operation.act, Reply.looks.injEq, hr.value i]
        refine ⟨?_, Value.truth_moved ρ _, htwin.alike.isCallable hin, htwin.alike.arrayLength? hin⟩
        cases h.value i <;> rfl
      have hend := Ends.pure htwin ((Operation.look i).act h).1 (v := .undefined) rfl
      exact ⟨hreply, hend.twin, hend.value, hend.below, hend.inside, hend.follows⟩
  | newArray => exact .newCell htwin .array (Or.inr rfl)
  | newObject => exact .newCell htwin .object (Or.inl rfl)
  | setElement a i v =>
      simp only [Operation.act, hr.value]
      exact .withProperty htwin _ _ (hr.held_value a).2 (hr.held_value v).1 (hr.held_value v).2
  | setField a n v =>
      simp only [Operation.act, hr.value]
      exact .withProperty htwin _ _ (hr.held_value a).2 (hr.held_value v).1 (hr.held_value v).2
  | evaluate source => exact hS source ho ρ _ _ htwin
  | _ => exact ho.elim

/-- Operations show the same of a copy of the whole store, whatever scripts do in it. -/
theorem Related.perform {S : String → Prop} (hS : ∀ source, S source → Comes everywhere m source)
    (hr : Related everywhere m ρ h h') {o : Operation} (ho : o.Allowed S) :
    Ends everywhere m ρ h.context (o.act h) (o.act h') := by
  have htwin := hr.twin
  cases o with
  | toNumber i =>
      have htied := steady_callFunction.toNumber htwin (hr.held_value i).1
      simp only [Operation.act, hr.value]
      refine ⟨congrArg Reply.number ?_, htied.twin, rfl, Value.below_of_no_address rfl,
        Value.in_of_no_address rfl, .of_keeps htied.keeps⟩
      exact eq_of_rel htied.answers
  | toText i =>
      have htied := steady_callFunction.toText htwin (hr.held_value i).1
      simp only [Operation.act, hr.value]
      refine ⟨congrArg (fun u => Reply.text (Option.map Units.display u)) ?_, htied.twin, rfl,
        Value.below_of_no_address rfl, Value.in_of_no_address rfl, .of_keeps htied.keeps⟩
      exact eq_of_rel htied.answers
  | element a i =>
      simp only [Operation.act, hr.value]
      exact .found htwin (htwin.alike.property? htwin.sound.grounded (hr.held_value a).2 _)
        fun v hv => htwin.sound.below_property? hv
  | getVariable name =>
      exact .found htwin (htwin.alike.global? htwin.sound.grounded trivial _)
        fun v hv => htwin.sound.below_global? hv
  | setVariable name v =>
      have hset := Ends.withProperty htwin (.reference Store.globalObject) (Units.ofString name)
        (Value.in_everywhere _) (hr.held_value v).1 (hr.held_value v).2
      rw [Value.moved_reference, htwin.alike.globalObject] at hset
      simp only [Operation.act, hr.value]
      exact hset
  | evaluate source => exact hS source ho ρ _ _ htwin
  | call i =>
      have htied : Tied m ρ (Value.Paired ρ) (callFunction (h.value i) .undefined [])
          (callFunction ((h.value i).moved ρ) .undefined []) h.context h'.context :=
        steady_callFunction htwin (h.value i) (Value.below_of_no_address rfl)
          fun _ hv => absurd hv List.not_mem_nil
      simp only [Operation.act, hr.value]
      exact .of_tied htied
  | _ => exact hr.make hS trivial

/-- What evaluating a source is a run of. -/
theorem run_evaluateSource (source : String) (s : Store) : (evaluateSource source).run s
    = match parse? source.toList with
      | none => (.error "script is malformed", s)
      | some body => (orExceptionText ((runScript body).run s).1, ((runScript body).run s).2) := by
  unfold evaluateSource
  rcases parse? source.toList with _ | body <;> rfl

/-- Whatever a source runs, it runs alike in a copy of the whole store. -/
theorem comes_all (source : String) : Comes everywhere 0 source := by
  intro ρ s t h
  rw [run_evaluateSource, run_evaluateSource]
  rcases parse? source.toList with _ | body
  · exact .pure h _ rfl
  · exact .of_tied (tied_runScript h body)

/-- What an inert source comes to: a fault, or its literal. -/
theorem run_evaluateSource_of_inert {source : String} (h : Inert source) :
    (∀ s, (evaluateSource source).run s = (.error "script is malformed", s)) ∨
      ∃ e : Expression, parse? source.toList = some [.expression e] ∧
        ∀ s, (evaluateSource source).run s
          = (.ok (evaluateLiteral e s).1, (evaluateLiteral e s).2) := by
  rcases hparse : parse? source.toList with _ | body
  · exact Or.inl fun s => by rw [run_evaluateSource, hparse]
  · rw [Inert, isInert, hparse, Option.all_some] at h
    rcases eq_expression_of_isLiteralBody h with ⟨e, rfl, hliteral⟩
    refine Or.inr ⟨e, rfl, fun s => ?_⟩
    rw [run_evaluateSource, hparse]
    dsimp only
    rw [runScript_expression, run_evaluate_literal hliteral]
    rfl

/-- A literal comes to the same in a copy of any part of the store. -/
theorem comes_literal {source : String} (hinert : Inert source)
    (hwrites : ∀ (e : Expression) (s : Store), parse? source.toList = some [.expression e] →
      ∀ x ∈ e.targets, s.Writable m [Store.scriptScope] x) : Comes D m source := by
  intro ρ s t h
  rcases run_evaluateSource_of_inert hinert with hfault | ⟨e, hparse, hrun⟩
  · rw [hfault, hfault]
    exact .pure h _ rfl
  · rw [hrun, hrun]
    rcases h.evaluateLiteral (hwrites e s hparse) with ⟨htwin, hkeeps, hpaired, hin⟩
    exact ⟨rfl, htwin, hpaired.1, hpaired.2, hin, .of_keeps hkeeps⟩

theorem comes_inert (D : Nat → Prop) {source : String} (h : Inert source) : Comes D 0 source :=
  comes_literal h fun _ s _ x _ => Store.writable_zero s _ x

theorem inert_of_quiet {source : String} (h : Quiet source) : Inert source := by
  simp only [Quiet, Inert, isQuiet, isInert, Option.all_eq_true] at h ⊢
  intro body hbody
  rcases eq_expression_of_isQuietBody (h body hbody) with ⟨e, rfl, hliteral, -⟩
  exact hliteral

/-- The literal of a quiet source has nothing to write to. -/
theorem targets_of_quiet {source : String} (h : Quiet source) {e : Expression}
    (hparse : parse? source.toList = some [.expression e]) : e.targets = [] := by
  rw [Quiet, isQuiet, hparse, Option.all_some] at h
  rcases eq_expression_of_isQuietBody h with ⟨e', heq, -, htargets⟩
  cases heq
  exact htargets

end

section

variable {ρ : Nat → Nat} {h h' : Holding language}

/-- Nobody can tell a holding from its copy in another store. -/
theorem bisimulation_related (ρ : Nat → Nat) (S : String → Prop) :
    Bisimulation (Operation.Allowed S) (Related everywhere 0 ρ) where
  length := fun _ _ hr => by rw [hr.values, List.length_map]
  step := fun _ _ hr o ho => by
    have hstep := hr.after (hr.perform (fun source _ => comes_all source) ho)
    exact ⟨hstep.1, hstep.2.1⟩

theorem Related.alike (hr : Related everywhere 0 ρ h h') (S : String → Prop) : Alike S h h' :=
  (bisimulation_related ρ S).alike hr

/-- Nothing is seen of the store behind a part of it while values are made from there. -/
theorem bisimulation_make (D : Nat → Prop) (ρ : Nat → Nat) :
    Bisimulation (Operation.Makes Inert) (Related D 0 ρ) where
  length := fun _ _ hr => by rw [hr.values, List.length_map]
  step := fun _ _ hr o ho => by
    have hstep := hr.after (hr.make (fun source hs => comes_inert D hs) ho)
    exact ⟨hstep.1, hstep.2.1⟩

theorem map_moved_id (vs : List Value) : vs.map (Value.moved id) = vs := by
  have hid : Value.moved id = id := funext Value.moved_id
  rw [hid, List.map_id]

/-- A sound store with values in it is a copy of itself, and of any store in which the cells
    are where they are in it. -/
theorem related_of_alike {m : Nat} {c c' : Store} {vs : List Value} (hs : c.Sound m)
    (ha : Store.Alike everywhere id c c') (hvs : ∀ v ∈ vs, v.Below c.size) :
    Related everywhere m id ⟨c, vs⟩ ⟨c', vs⟩ :=
  ⟨⟨hs, ha⟩, (map_moved_id vs).symm, fun v hv => ⟨hvs v hv, v.in_everywhere⟩⟩

/-- What the language comes to is a copy of itself. -/
theorem related_common {m : Nat} (hm : m ≤ 2) {S : String → Prop}
    (hS : ∀ source, S source → Comes everywhere m source)
    (hh : language.Common (Operation.Allowed S) h) :
    Related everywhere m id h h ∧ Store.initial.Follows m h.context := by
  induction hh with
  | refl =>
      exact ⟨related_of_alike (Store.sound_initial hm) (.refl _) fun _ hv =>
        absurd hv List.not_mem_nil, .refl m _⟩
  | perform o ho _ ih =>
      have hstep := ih.1.after (ih.1.perform hS ho)
      exact ⟨hstep.2.1, ih.2.trans hstep.2.2⟩

/-- What the language comes to is a sound store with values in it. -/
theorem sound_common {S : String → Prop} (hh : language.Common (Operation.Allowed S) h) :
    Store.Sound 0 h.context ∧ ∀ v ∈ h.values, Value.Below (Store.size h.context) v := by
  have hrelated := (related_common (Nat.zero_le 2) (fun source _ => comes_all source) hh).1
  exact ⟨hrelated.twin.sound, fun v hv => (hrelated.held v hv).1⟩

end

end WebScript

end MapStyling
