import MapStyling.Proofs.WebEngine.Questions
import MapStyling.Proofs.WebScript.Settings

/-!
# Quiet Scripts

Scripts of web pages that leave alone what they share, by what is written in them.

A function of a quiet source writes to nothing but what it declares itself. So as long as
an engine has been given quiet sources only, and no function was called, no function in its
store writes to anything that is there: the store is still. A call in a still store is above
the mark of all cells that there are. It puts new cells behind them and changes none, so
nobody can tell afterwards that anything was called.

What a call puts behind need not be still, as functions can make functions that write to
variables of the call. That is why an invariant of the engine alone would not do. What lasts
from call to call is that nobody can tell the engine from a still one.

## Main definitions

* `Store.Still`: Stores whose functions write to nothing that they do not declare.
* `Calm`: A still store, with values in it.
* `SeemsCalm`: Engines that nobody can tell from one with a calm holding.

## Theorems

* `Calm.set`: What an engine is set up with leaves a store still.
* `Calm.leavesShared`: A question to a still engine leaves what scripts share as it is.
* `upholds_seemsCalm`, `SeemsCalm.leavesShared`: So does a question to any engine that was
  given quiet sources only.
-/

namespace MapStyling

open WebLanguage

namespace WebScript

/-- A function that writes to nothing that it does not declare, or a cell of another kind. -/
def Cell.Still : Cell → Prop
  | .object (.closure f _ _) _ _ => f.targets = []
  | _ => True

/-- A store whose functions write to nothing that they do not declare. -/
def Store.Still (s : Store) : Prop := ∀ (a : Nat) (c : Cell), s.cells[a]? = some c → c.Still

theorem Cell.Becomes.still {c d : Cell} (h : c.Becomes d) (hc : c.Still) : d.Still := by
  cases h with
  | scope => trivial
  | object hshape => cases hshape with
    | closure => exact hc
    | plain | array => trivial

namespace Store.Still

variable {s t : Store}

theorem initial : Store.initial.Still := by
  intro a c hc
  have hcells : c = .object .plain (.common .object) [] ∨ c = .scope [] := by
    simpa only [Store.initial, List.mem_toArray, List.mem_cons, List.not_mem_nil, or_false]
      using Array.mem_of_getElem? hc
  rcases hcells with rfl | rfl <;> trivial

/-- No cell is added, and the others keep their kind and their code. -/
theorem of_keeps (h : s.Still) (hk : s.Keeps 0 t) (hsize : t.size = s.size) : t.Still := by
  intro a d hd
  have hlt : a < s.size := hsize ▸ Store.lt_size_of_getElem? hd
  have hc : s.cells[a]? = some s.cells[a] := Array.getElem?_eq_getElem hlt
  rcases hk.becomes a _ hc with ⟨d', hd', hcd⟩
  rw [hd, Option.some.injEq] at hd'
  exact hd' ▸ hcd.still (h a _ hc)

theorem add (h : s.Still) {c : Cell} (hc : c.Still) : (s.add c).2.Still := by
  intro a d hd
  by_cases hlt : a < s.size
  · rw [Store.getElem?_add_lt hlt] at hd
    exact h a d hd
  · rw [Store.eq_of_getElem?_add hd (Nat.le_of_not_lt hlt)]
    exact hc

theorem setVariable (h : s.Still) (a : Nat) (name : Units) (v : Variable) :
    (s.setVariable a name v).Still := by
  intro b d hd
  unfold Store.setVariable at hd
  by_cases hab : a = b
  · rw [hab, Store.getElem?_modify_self] at hd
    rcases Option.map_eq_some_iff.mp hd with ⟨c, hc, rfl⟩
    have hstill := h b c hc
    cases c with
    | scope => trivial
    | object => exact hstill
  · rw [Store.getElem?_modify_of_ne s _ hab] at hd
    exact h b d hd

theorem withProperty (h : s.Still) (hs : s.Sound 0) (target : Value) (name : Units) {v : Value}
    (hv : v.Below s.size) : (s.withProperty target name v).Still := by
  unfold Store.withProperty
  rcases hset : s.setProperty? target name v with _ | t
  · exact h
  · exact h.of_keeps (hs.setProperty?_zero hv hset).2 (Store.size_setProperty? hset)

theorem addClosure (h : s.Still) {f : Function} (hf : f.targets = []) (scopes : List Nat) :
    (s.add (scriptClosure f scopes)).2.Still :=
  h.add hf

/-- A literal with nothing to write to. -/
theorem evaluateLiteral (h : s.Still) {e : Expression} (he : e.targets = []) :
    (evaluateLiteral e s).2.Still := by
  cases e with
  | function name parameters body =>
      rw [Expression.targets_function name (name.getD []) _ _ false] at he
      cases name with
      | none => exact h.addClosure he _
      | some name =>
          have hscope := h.add (c := .scope [(name, ⟨none, .fixed⟩)]) trivial
          exact (hscope.addClosure he _).setVariable _ _ _
  | arrow parameters body =>
      rw [Expression.targets_arrow [] _ _ true] at he
      exact h.addClosure he _
  | _ => exact h

/-- Nothing that is there is written to in a still store. -/
theorem sound (h : s.Still) (hs : s.Sound 0) : s.Sound s.size where
  mark_le := Nat.le_refl _
  closed := hs.closed
  grounded := hs.grounded
  globalObject := hs.globalObject
  scriptScope := hs.scriptScope
  confined := fun a f scopes self p properties hc x hx => by
    rw [show f.targets = [] from h a _ hc] at hx
    exact absurd hx List.not_mem_nil

end Store.Still

variable {S : String → Prop} {h h' : Holding language} {e e' : WebEngine language}

/-- A still store, with values in it. -/
structure Calm (h : Holding language) : Prop where
  related : Related everywhere 0 id h h
  still : Store.Still h.context

/-- Operations that make values, fill them and set variables leave a store still. -/
theorem Calm.set (hh : Calm h) {o : Operation} (ho : o.Sets Quiet) : Calm (o.perform h).2 := by
  have hr := hh.related
  have hsound := hr.twin.sound
  refine ⟨(hr.after (hr.perform (fun source _ => comes_all source) ho.allowed)).2.1, ?_⟩
  cases o with
  | constant | look => exact hh.still
  | newArray | newObject => exact hh.still.add trivial
  | setElement a i v => exact hh.still.withProperty hsound _ _ (hr.held_value v).1
  | setField a n v => exact hh.still.withProperty hsound _ _ (hr.held_value v).1
  | setVariable n v => exact hh.still.withProperty hsound _ _ (hr.held_value v).1
  | evaluate source =>
      change Store.Still ((evaluateSource source).run h.context).2
      rcases run_evaluateSource_of_inert (inert_of_quiet ho) with hfault | ⟨e, hparse, hrun⟩
      · rw [hfault]
        exact hh.still
      · rw [hrun]
        exact hh.still.evaluateLiteral (targets_of_quiet ho hparse)
  | _ => exact ho.elim

/-- An operation that reads a result runs above the mark. -/
theorem Related.keeps_read {m : Nat} (hr : Related everywhere m id h h) {o : Operation}
    (ho : o.Reads) : Store.Keeps m h.context (o.perform h).2.context := by
  have htwin := hr.twin
  cases o with
  | constant | look | element => exact .refl m _
  | toNumber i => exact (steady_callFunction.toNumber htwin (hr.held_value i).1).keeps
  | toText i => exact (steady_callFunction.toText htwin (hr.held_value i).1).keeps
  | call i => exact (steady_callFunction htwin (h.value i) (Value.below_of_no_address rfl)
      fun _ hv => absurd hv List.not_mem_nil).keeps
  | _ => exact ho.elim

/-- What is reached above a mark from a store. -/
def Above (m : Nat) (s : Store) (h : Holding language) : Prop :=
  Related everywhere m id h h ∧ s.Keeps m h.context

theorem Above.perform {m : Nat} {s : Store} (hh : Above m s h) {o : Operation} (ho : o.Reads) :
    Above m s (o.perform h).2 := by
  have hnone : ∀ source, False → Comes everywhere m source := fun _ hfalse => hfalse.elim
  have hstep := hh.1.after (hh.1.perform hnone ho.allowed)
  exact ⟨hstep.2.1, hh.2.trans (hh.1.keeps_read ho)⟩

/-- Whatever the question and whatever comes of it, nobody can tell that it was asked. -/
theorem Calm.leavesShared (hh : Calm e.holding) (q : Question) : WebEngine.LeavesShared S e q := by
  intro f hf k hk
  have hr := hh.related
  have hsound := hh.still.sound hr.twin.sound
  have hvalues : ∀ v ∈ e.holding.values, v.Below (Store.size e.context) :=
    fun v hv => (hr.held v hv).1
  have hstart : Above (Store.size e.context) e.context e.holding :=
    ⟨related_of_alike hsound (.refl _) hvalues, .refl _ _⟩
  -- The call runs above the mark, and so does what converts its result.
  have habove : Above (Store.size e.context) e.context k := by
    rcases WebEngine.exists_position hf with ⟨j, rfl⟩
    rw [← WebEngine.perform_call] at hk
    induction hk with
    | refl => exact hstart.perform (o := .call j) trivial
    | perform o ho _ ih => exact ih.perform ho.reads
  have hgrows : Store.Grows e.context k.context := ⟨habove.2.size_le, habove.2.below⟩
  rcases related_grown hr.twin.sound hgrows hvalues with ⟨ρ, hrelated⟩
  exact hrelated.alike S

/-- Two engines of which the first one has a calm holding, and that nobody can tell apart. -/
def CalmAlike (h h' : Holding language) : Prop := Calm h ∧ Alike (fun _ => True) h h'

theorem bisimulation_calmAlike : Bisimulation (Operation.Sets Quiet) CalmAlike where
  length := fun _ _ hh => hh.2.length
  step := fun h h' hh o ho => by
    have hallowed : o.Allowed fun _ => True := by
      cases o <;> trivial
    rcases Alike.bisimulation.step h h' hh.2 o hallowed with ⟨hreply, hafter⟩
    exact ⟨hreply, hh.1.set ho, hafter⟩

/-- An engine that nobody can tell from one with a calm holding. -/
def SeemsCalm (e : WebEngine language) : Prop := ∃ calm, WebEngine.Twins CalmAlike calm e

theorem calm_of_twins (h : WebEngine.Twins CalmAlike e e') :
    Calm e.holding ∧ WebEngine.Twins (Alike fun _ => True) e e' := by
  rcases h with ⟨vs, vs', h⟩
  rcases h.related with ⟨hcalm, halike⟩
  refine ⟨⟨?_, hcalm.still⟩, vs, vs', halike, h.stack, h.functions⟩
  exact related_of_alike hcalm.related.twin.sound (.refl _) fun v hv =>
    (hcalm.related.held v (h.mem_of_mem_holding hv)).1

/-- A question to an engine of this kind leaves what scripts share as it is. -/
theorem SeemsCalm.leavesShared (he : SeemsCalm e) (q : Question) :
    WebEngine.LeavesShared S e q := by
  rcases he with ⟨calm, htwins⟩
  rcases calm_of_twins htwins with ⟨hcalm, htwins⟩
  exact ((hcalm.leavesShared q).of_twins htwins).mono fun _ _ => trivial

theorem seemsCalm_new : SeemsCalm (WebEngine.new : WebEngine language) := by
  have hcalm : Calm ⟨language.initial, []⟩ :=
    ⟨related_of_alike (Store.sound_initial (Nat.zero_le 2)) (.refl _) fun _ hv =>
      absurd hv List.not_mem_nil, Store.Still.initial⟩
  exact ⟨_, (WebEngine.agree_setConstant bisimulation_calmAlike (fun _ ho => ho)
    WebEngine.featureName .null _ _ (WebEngine.joined_empty ⟨hcalm, .refl _⟩).twins).2⟩

/-- Whatever is done with quiet sources, and whatever is asked in between. -/
theorem upholds_seemsCalm :
    Engine.Upholds (fun source => Quiet (WebEngine.scriptText source)) SeemsCalm where
  builds := (WebEngine.builds_twins bisimulation_calmAlike fun _ ho => ho.sets).invariant
    fun ha => ha.stable_right
  setGlobal := fun n a =>
    (WebEngine.agree_setGlobal bisimulation_calmAlike (fun _ ho => ho) n a).stable_right
  reset := fun e _ _ ⟨_, h⟩ => ⟨_, h.cut e.stack.height⟩
  setFeature := fun f =>
    (WebEngine.agree_setFeature bisimulation_calmAlike (fun _ ho => ho) f).stable_right
  setFilterKey := fun k n =>
    (WebEngine.agree_setFilterKey bisimulation_calmAlike (fun _ ho => ho) k n).stable_right
  setFunction := fun i _ hs =>
    (WebEngine.agree_setFunction bisimulation_calmAlike (fun _ ho => ho) i hs).stable_right
  truncateFunctions := fun n => (WebEngine.agree_truncateFunctions n).stable_right
  ask := fun q s he => by
    -- The question is not asked of the calm engine, which nobody can tell from this one after it.
    have hunchanged := (he.leavesShared (S := fun _ => True) q).ask ⟨rfl, rfl, .refl _⟩
    rcases he with ⟨calm, htwins⟩
    rcases calm_of_twins htwins with ⟨hcalm, htwins⟩
    rcases WebEngine.twins_iff.mp (htwins.trans hunchanged.twins) with ⟨halike, hheight, hslots⟩
    exact ⟨calm, (WebEngine.joined_holding ⟨hcalm, halike⟩ hheight hslots).twins⟩

end WebScript

end MapStyling
