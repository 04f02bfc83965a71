import MapStyling.Engine.WebLanguage
import MapStyling.Proofs.Agreement
import Mathlib.Data.List.Forall2
import Mathlib.Tactic.Choose

/-!
# What Can Be Told Apart

Contexts of a language that nobody can tell apart.

Whoever works with a language holds values and does one thing after the other: looks at
a value, converts it, makes a new one, reads or writes an object, evaluates a source,
calls a function. What is shown of all this are truth values, numbers and texts. Values
themselves are not shown, so two contexts in which the same operations always show the
same are alike, wherever their objects are. Each operation adds a value to those that are
held, which is the undefined one where it has no value.

A language need not let sources loose on everything, so the sources that may be
evaluated are singled out.

## Main definitions

* `WebLanguage.Operation`: What can be done, with values by their positions.
* `WebLanguage.Holding`: A context, and the values that somebody holds in it.
* `Operation.perform`: What an operation shows, and what is held after it.
* `WebLanguage.Bisimulation`: Relations of which operations show nothing.
* `WebLanguage.Alike`: Contexts in which all operations show the same.

## Theorems

* `Alike.bisimulation`, `Bisimulation.alike`: To be alike is the greatest of these relations.
* `Alike.select`: Contexts are alike if only some of the values are held on to.
-/

namespace MapStyling

namespace WebLanguage

/-- A value that every context has. -/
inductive Constant
  | undefined
  | null
  | boolean (b : Bool)
  | integer (n : Int)
  | number (v : Float)
  | text (s : String)

/-- What can be done with a context. Values that are held go by their positions. -/
inductive Operation
  | constant (c : Constant)
  | look (v : Nat)
  | toNumber (v : Nat)
  | toText (v : Nat)
  | newArray
  | newObject
  | setElement (array : Nat) (index : UInt32) (v : Nat)
  | element (array : Nat) (index : UInt32)
  | setField (object : Nat) (name : String) (v : Nat)
  | setVariable (name : String) (v : Nat)
  | getVariable (name : String)
  | evaluate (source : String)
  | call (f : Nat)

/-- What an operation shows. -/
inductive Reply
  | done
  | looks (shape : WebLanguage.Shape) (truth isCallable : Bool) (length : Option Nat)
  | number (v : Option Float)
  | text (s : Option String)
  | found (b : Bool)
  | ended (fault : Option String)

/-- A context, and the values that somebody holds in it. -/
structure Holding (L : WebLanguage) where
  context : L.Context
  values : List L.Value

variable {L : WebLanguage}

/-- The value of a constant. -/
def Constant.value : Constant → L.Value
  | undefined => L.undefined
  | null => L.null
  | boolean b => L.ofBoolean b
  | integer n => L.ofInteger n
  | number v => L.ofNumber v
  | text s => L.ofText s

/-- The value at a position. -/
def Holding.value (h : Holding L) (i : Nat) : L.Value := (h.values[i]?).getD L.undefined

/-- The text of an exception, if a run has ended with one. -/
def faultOf : Except String L.Value → Option String
  | .ok _ => none
  | .error fault => some fault

/-- The value of a run, if it has one. -/
def valueOf : Except String L.Value → L.Value
  | .ok v => v
  | .error _ => L.undefined

/-- What an operation shows, its value, and the context after it. -/
def Operation.act (h : Holding L) : Operation → Reply × L.Value × L.Context
  | constant c => (.done, c.value, h.context)
  | look v => (.looks (L.shape (h.value v)) (L.truth (h.value v))
      (L.isCallable h.context (h.value v)) (L.arrayLength? h.context (h.value v)),
      L.undefined, h.context)
  | toNumber v =>
    let r := (L.toNumber (h.value v)).run h.context
    (.number r.1, L.undefined, r.2)
  | toText v =>
    let r := (L.toText (h.value v)).run h.context
    (.text r.1, L.undefined, r.2)
  | newArray => (.done, L.newArray.run h.context)
  | newObject => (.done, L.newObject.run h.context)
  | setElement array index v =>
    (.done, L.undefined, ((L.setElement (h.value array) index (h.value v)).run h.context).2)
  | element array index =>
    let r := (L.element? (h.value array) index).run h.context
    (.found r.1.isSome, r.1.getD L.undefined, r.2)
  | setField object name v =>
    (.done, L.undefined, ((L.setField (h.value object) name (h.value v)).run h.context).2)
  | setVariable name v =>
    (.done, L.undefined, ((L.setVariable name (h.value v)).run h.context).2)
  | getVariable name =>
    let r := (L.getVariable? name).run h.context
    (.found r.1.isSome, r.1.getD L.undefined, r.2)
  | evaluate source =>
    let r := (L.evaluate source).run h.context
    (.ended (faultOf r.1), valueOf r.1, r.2)
  | call f =>
    let r := (L.call (h.value f)).run h.context
    (.ended (faultOf r.1), valueOf r.1, r.2)

/-- What an operation shows, and what is held after it. -/
def Operation.perform (o : Operation) (h : Holding L) : Reply × Holding L :=
  let r := o.act h
  (r.1, ⟨r.2.2, h.values ++ [r.2.1]⟩)

/-- Operations that evaluate none but the allowed sources. -/
def Operation.Allowed (S : String → Prop) : Operation → Prop
  | evaluate source => S source
  | _ => True

/-- Operations that make values and fill them, with none but the allowed sources. -/
def Operation.Makes (S : String → Prop) : Operation → Prop
  | constant _ | look _ | newArray | newObject | setElement _ _ _ | setField _ _ _ => True
  | evaluate source => S source
  | _ => False

theorem Operation.Makes.allowed {S : String → Prop} {o : Operation} (h : o.Makes S) :
    o.Allowed S := by
  cases o <;> trivial

/-- Operations that make values, fill them, and set variables to them. -/
def Operation.Sets (S : String → Prop) : Operation → Prop
  | setVariable _ _ => True
  | o => o.Makes S

theorem Operation.Makes.sets {S : String → Prop} {o : Operation} (h : o.Makes S) : o.Sets S := by
  cases o with
  | setVariable name v => trivial
  | _ => exact h

theorem Operation.Sets.allowed {S : String → Prop} {o : Operation} (h : o.Sets S) :
    o.Allowed S := by
  cases o with
  | evaluate source => exact h
  | _ => trivial

/-- Operations that look at values, convert them, and go into arrays. -/
def Operation.Converts : Operation → Prop
  | constant _ | look _ | toNumber _ | toText _ | element _ _ => True
  | _ => False

/-- Operations that call functions, and convert what comes of it. -/
def Operation.Reads : Operation → Prop
  | call _ => True
  | o => o.Converts

theorem Operation.Converts.reads {o : Operation} (h : o.Converts) : o.Reads := by
  cases o with
  | call f => trivial
  | _ => exact h

theorem Operation.Reads.allowed {S : String → Prop} {o : Operation} (h : o.Reads) :
    o.Allowed S := by
  cases o with
  | evaluate source => exact h.elim
  | _ => trivial

/-- What operations show, one after the other. -/
def replies : List Operation → Holding L → List Reply
  | [], _ => []
  | o :: rest, h => (o.perform h).1 :: replies rest (o.perform h).2

/-- A relation between contexts of which the allowed operations show nothing, and which they
    keep. -/
structure Bisimulation (allowed : Operation → Prop) (T : Holding L → Holding L → Prop) : Prop where
  length : ∀ h h', T h h' → h'.values.length = h.values.length
  step : ∀ h h', T h h' → ∀ o : Operation, allowed o →
    (o.perform h').1 = (o.perform h).1 ∧ T (o.perform h).2 (o.perform h').2

/-- Contexts in which as many values are held, and in which all operations show the same,
    one after the other. -/
structure Alike (S : String → Prop) (h h' : Holding L) : Prop where
  length : h'.values.length = h.values.length
  replies : ∀ operations : List Operation, (∀ o ∈ operations, o.Allowed S) →
    WebLanguage.replies operations h' = WebLanguage.replies operations h

/-- Values that are held at one position. -/
def Beside (vs vs' : List L.Value) (v v' : L.Value) : Prop :=
  ∃ i : Nat, vs[i]? = some v ∧ vs'[i]? = some v'

theorem Holding.value_eq {h : Holding L} {i : Nat} {v : L.Value} (hi : h.values[i]? = some v) :
    h.value i = v := by
  rw [value, hi, Option.getD_some]

namespace Beside

variable {vs vs' : List L.Value} {v v' : L.Value}

theorem append (h : Beside vs vs' v v') (ws ws' : List L.Value) :
    Beside (vs ++ ws) (vs' ++ ws') v v' := by
  rcases h with ⟨i, hi, hi'⟩
  refine ⟨i, ?_, ?_⟩
  · rw [List.getElem?_append_left (List.getElem?_eq_some_iff.mp hi).1, hi]
  · rw [List.getElem?_append_left (List.getElem?_eq_some_iff.mp hi').1, hi']

theorem last (h : vs'.length = vs.length) (v v' : L.Value) :
    Beside (vs ++ [v]) (vs' ++ [v']) v v' :=
  ⟨vs.length, List.getElem?_concat_length, by rw [← h, List.getElem?_concat_length]⟩

theorem prepend (ws ws' : List L.Value) (hlength : ws'.length = ws.length)
    (h : Beside vs vs' v v') : Beside (ws ++ vs) (ws' ++ vs') v v' := by
  rcases h with ⟨i, hi, hi'⟩
  refine ⟨i + ws.length, ?_, ?_⟩
  · rw [List.getElem?_append_right (Nat.le_add_left _ _), Nat.add_sub_cancel, hi]
  · rw [← hlength, List.getElem?_append_right (Nat.le_add_left _ _), Nat.add_sub_cancel, hi']

/-- Values of lists that are held at the front. -/
theorem forall₂_left (h : vs'.length = vs.length) (ws ws' : List L.Value) :
    List.Forall₂ (Beside (vs ++ ws) (vs' ++ ws')) vs vs' := by
  refine List.forall₂_iff_get.mpr ⟨h.symm, fun i hi hi' => ⟨i, ?_, ?_⟩⟩
  · rw [List.getElem?_append_left hi, List.getElem?_eq_getElem hi]
    rfl
  · rw [List.getElem?_append_left hi', List.getElem?_eq_getElem hi']
    rfl

/-- Values that are held at one position are found there. -/
theorem position (h : Beside vs vs' v v') (c c' : L.Context) :
    ∃ i, Holding.value ⟨c, vs⟩ i = v ∧ Holding.value ⟨c', vs'⟩ i = v' := by
  rcases h with ⟨i, hi, hi'⟩
  exact ⟨i, Holding.value_eq hi, Holding.value_eq hi'⟩

end Beside

namespace Operation

/-- An operation on values at other positions. -/
def rename (f : Nat → Nat) : Operation → Operation
  | look v => look (f v)
  | toNumber v => toNumber (f v)
  | toText v => toText (f v)
  | setElement array index v => setElement (f array) index (f v)
  | element array index => element (f array) index
  | setField object name v => setField (f object) name (f v)
  | setVariable name v => setVariable name (f v)
  | call v => call (f v)
  | o => o

theorem allowed_rename {S : String → Prop} {o : Operation} (h : o.Allowed S) (f : Nat → Nat) :
    (o.rename f).Allowed S := by
  cases o <;> exact h

/-- An operation sees its context and its values, and not where these are held. -/
theorem act_rename (o : Operation) {f : Nat → Nat} {h h' : Holding L}
    (hcontext : h'.context = h.context) (hvalue : ∀ i, h'.value (f i) = h.value i) :
    (o.rename f).act h' = o.act h := by
  cases o <;> simp only [rename, act, hcontext, hvalue]

end Operation

/-- A value that was held before is where it was. -/
theorem Holding.value_perform (o : Operation) (h : Holding L) {i : Nat}
    (hi : i < h.values.length) : (o.perform h).2.value i = h.value i := by
  change ((h.values ++ [(o.act h).2.1])[i]?).getD _ = _
  rw [List.getElem?_append_left hi, value]

theorem length_perform (o : Operation) (h : Holding L) :
    (o.perform h).2.values.length = h.values.length + 1 := by
  change (h.values ++ [(o.act h).2.1]).length = _
  rw [List.length_append, List.length_singleton]

theorem Holding.value_perform_length (o : Operation) (h : Holding L) :
    (o.perform h).2.value h.values.length = (o.act h).2.1 := by
  change ((h.values ++ [(o.act h).2.1])[h.values.length]?).getD _ = _
  rw [List.getElem?_concat_length, Option.getD_some]

/-- A context in which the values of another holding are held too, at positions that a map
    tells. All other positions are mapped to one with the undefined value. -/
structure Holding.Includes (f : Nat → Nat) (h k : Holding L) : Prop where
  context : h.context = k.context
  lt_length : ∀ i, f i < h.values.length
  value : ∀ i, h.value (f i) = k.value i

/-- The new value of an operation is behind the others on both sides. -/
theorem Holding.Includes.perform {f : Nat → Nat} {h k : Holding L} (hf : h.Includes f k)
    (o : Operation) : ((o.rename f).perform h).1 = (o.perform k).1 ∧
      ((o.rename f).perform h).2.Includes
        (fun i => if i = k.values.length then h.values.length else f i) (o.perform k).2 := by
  have hact := o.act_rename hf.context hf.value
  refine ⟨congrArg (fun r => r.1) hact, congrArg (fun r => r.2.2) hact, fun i => ?_, fun i => ?_⟩
  · rw [length_perform]
    split
    · exact Nat.lt_succ_self _
    · exact Nat.lt_succ_of_lt (hf.lt_length i)
  · split
    · next heq => rw [heq, value_perform_length, value_perform_length, hact]
    · next hne =>
      rw [value_perform _ _ (hf.lt_length i), hf.value]
      rcases Nat.lt_or_ge i k.values.length with hi | hi
      · rw [value_perform _ _ hi]
      · have hi' : (o.perform k).2.values.length ≤ i := by
          rw [length_perform]
          omega
        rw [Holding.value, Holding.value, List.getElem?_eq_none hi, List.getElem?_eq_none hi']

namespace Alike

variable {S : String → Prop} {h h' h'' : Holding L}

theorem refl (h : Holding L) : Alike S h h := ⟨rfl, fun _ _ => rfl⟩

theorem symm (hh' : Alike S h h') : Alike S h' h :=
  ⟨hh'.length.symm, fun operations ho => (hh'.replies operations ho).symm⟩

theorem trans (hh' : Alike S h h') (hh'' : Alike S h' h'') : Alike S h h'' :=
  ⟨hh''.length.trans hh'.length,
    fun operations ho => (hh''.replies operations ho).trans (hh'.replies operations ho)⟩

/-- Fewer sources may be evaluated. -/
theorem mono {S' : String → Prop} (hh' : Alike S h h') (hS : ∀ source, S' source → S source) :
    Alike S' h h' := by
  refine ⟨hh'.length, fun operations ho => hh'.replies operations fun o hmem => ?_⟩
  have hallowed := ho o hmem
  cases o with
  | evaluate source => exact hS source hallowed
  | _ => trivial

theorem bisimulation : Bisimulation (Operation.Allowed S) (Alike S (L := L)) where
  length := fun _ _ hh' => hh'.length
  step := by
    intro h h' hh' o ho
    have hcons : ∀ rest : List Operation, (∀ p ∈ rest, p.Allowed S) →
        (o.perform h').1 :: WebLanguage.replies rest (o.perform h').2
          = (o.perform h).1 :: WebLanguage.replies rest (o.perform h).2 := fun rest hrest =>
      hh'.replies (o :: rest) (List.forall_mem_cons.mpr ⟨ho, hrest⟩)
    refine ⟨(List.cons.inj (hcons [] fun _ hp => absurd hp List.not_mem_nil)).1, ?_, ?_⟩
    · rw [length_perform, length_perform, hh'.length]
    · exact fun rest hrest => (List.cons.inj (hcons rest hrest)).2

end Alike

/-- Contexts in a relation of which no operation shows anything are alike. -/
theorem Bisimulation.alike {S : String → Prop} {T : Holding L → Holding L → Prop}
    (hT : Bisimulation (Operation.Allowed S) T) {h h' : Holding L} (hh' : T h h') :
    Alike S h h' := by
  refine ⟨hT.length h h' hh', fun operations => ?_⟩
  induction operations generalizing h h' with
  | nil => exact fun _ => rfl
  | cons o rest ih =>
      intro ho
      rcases hT.step h h' hh' o (ho o List.mem_cons_self) with ⟨hreply, hafter⟩
      rw [replies, replies, hreply, ih hafter fun p hp => ho p (List.mem_cons_of_mem _ hp)]

/-- Holding on to some of the values, in any order and as often as one likes. -/
theorem Alike.select {S : String → Prop} {h h' : Holding L} (hh' : Alike S h h')
    {vs vs' : List L.Value}
    (hvs : List.Forall₂ (Beside h.values h'.values) vs vs') :
    Alike S ⟨h.context, vs⟩ ⟨h'.context, vs'⟩ := by
  let T (k k' : Holding L) : Prop := k'.values.length = k.values.length ∧
    ∃ m m' f, Alike S m m' ∧ m.Includes f k ∧ m'.Includes f k'
  have hT : Bisimulation (Operation.Allowed S) T := by
    refine ⟨fun _ _ hkk' => hkk'.1, ?_⟩
    rintro k k' ⟨hlength, m, m', f, hm, hf, hf'⟩ o ho
    rcases Alike.bisimulation.step _ _ hm _ (o.allowed_rename ho f) with ⟨hreply, hafter⟩
    rcases hf.perform o with ⟨hsame, hincludes⟩
    rcases hf'.perform o with ⟨hsame', hincludes'⟩
    rw [hlength, hm.length] at hincludes'
    refine ⟨by rw [← hsame, ← hsame', hreply], ?_, _, _, _, hafter, hincludes, hincludes'⟩
    rw [length_perform, length_perform, hlength]
  refine hT.alike ⟨hvs.length_eq.symm, ?_⟩
  -- One more value is held for the positions at which nothing is.
  have hposition : ∀ i, ∃ j, j < h.values.length + 1 ∧
      ((Operation.constant .undefined).perform h).2.value j = Holding.value ⟨h.context, vs⟩ i ∧
      ((Operation.constant .undefined).perform h').2.value j
        = Holding.value ⟨h'.context, vs'⟩ i := by
    intro i
    rcases Nat.lt_or_ge i vs.length with hi | hi
    · have hi' : i < vs'.length := by rwa [← hvs.length_eq]
      rcases hvs.get hi hi' with ⟨j, hj, hj'⟩
      have hlt := (List.getElem?_eq_some_iff.mp hj).1
      refine ⟨j, Nat.lt_succ_of_lt hlt, ?_, ?_⟩
      · rw [Holding.value_perform _ _ hlt, Holding.value_eq hj,
          Holding.value_eq (List.getElem?_eq_getElem hi)]
        rfl
      · rw [Holding.value_perform _ _ (by rwa [hh'.length]), Holding.value_eq hj',
          Holding.value_eq (List.getElem?_eq_getElem hi')]
        rfl
    · have hi' : vs'.length ≤ i := by rwa [← hvs.length_eq]
      refine ⟨h.values.length, Nat.lt_succ_self _, ?_, ?_⟩
      · rw [Holding.value_perform_length, Holding.value, List.getElem?_eq_none hi]
        rfl
      · rw [← hh'.length, Holding.value_perform_length, Holding.value,
          List.getElem?_eq_none hi']
        rfl
  choose f hf hvalue hvalue' using hposition
  refine ⟨_, _, f, (Alike.bisimulation.step _ _ hh' (.constant .undefined) trivial).2,
    ⟨rfl, fun i => ?_, hvalue⟩, rfl, fun i => ?_, hvalue'⟩
  · rw [length_perform]
    exact hf i
  · rw [length_perform, hh'.length]
    exact hf i

/-- What is alike is so if only the values in front are held. -/
theorem Alike.front {S : String → Prop} {c c' : L.Context} {vs vs' ws ws' : List L.Value}
    (h : Alike S ⟨c, vs ++ ws⟩ ⟨c', vs' ++ ws'⟩) (hlength : vs'.length = vs.length) :
    Alike S ⟨c, vs⟩ ⟨c', vs'⟩ :=
  h.select (Beside.forall₂_left hlength _ _)

end WebLanguage

end MapStyling
