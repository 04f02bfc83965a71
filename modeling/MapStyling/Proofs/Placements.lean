import MapStyling.Proofs.Tabled

/-!
# Sources behind Functions

Which source stands behind each function of a session.

The calls alone say at which position each source ends up: new functions replace all
sources, a scene does so once, and one more function is one more source. So wherever a
source ends up, there is a function that was made of it, however long ago. What was true
of the function when it was made is true of it now if no call can make it untrue.

## Main definitions

* `placedSources`: The sources of the functions that calls lead to.
* `Engine.Tabled.Keeping`: What is true of the functions of a source, and stays true.
* `Engine.Tabled.Placing`: Sessions in which it is true at every position of the source.

## Theorems

* `Engine.Tabled.Keeping.after`: It is true in every session that calls lead to.
-/

namespace MapStyling

/-- What a session knows of the calls that were made: the id of its scene, and the sources
    of its functions. -/
structure Placed where
  sceneId : Option Int
  sources : List String

/-- What is known after one more call. -/
def Call.place (p : Placed) : Call → Placed
  | initFunctions scene =>
    if p.sceneId = some scene.id then p else ⟨some scene.id, scene.functions⟩
  | setFunctions sources => { p with sources }
  | addFunction source => { p with sources := p.sources ++ [source] }
  | _ => p

namespace FunctionTable

theorem get?_cut_of_lt {α : Type} (t : FunctionTable α) {i count : Nat} (h : i < count) :
    (t.cut count).get? i = t.get? i := by
  simp only [cut, get?, List.getElem?_take, if_pos h]

end FunctionTable

namespace Engine.Tabled

variable {σ F : Type} [Engine σ]

/-- An engine of which something is true that lasts, and on which something is true of a
    function once it has been made of a source, and lasts as well. -/
structure Keeping (T : Tabled σ F) (allowed : String → Prop) (source : String) (P : σ → Prop)
    (Q : F → σ → Prop) : Prop where
  lasts : Engine.Lasts allowed P
  lasts_function : ∀ f, Engine.Lasts allowed (Q f)
  setFunction : ∀ i e, P e →
    let e' := ((Engine.setFunction i source : StateM σ (Except ScriptFault Unit)).run e).2
    ∃ f, (T.table e').get? i = some f ∧ Q f e'

/-- A session with a function, of which it is true, at every position of the source. -/
structure Placing (T : Tabled σ F) (source : String) (P : σ → Prop) (Q : F → σ → Prop) (p : Placed)
    (s : Session σ) : Prop where
  sceneId : s.sceneId = p.sceneId
  functionCount : s.functionCount = p.sources.length
  holds : P s.engine
  functions : ∀ i : Nat, p.sources[i]? = some source →
    ∃ f, (T.table s.engine).get? i = some f ∧ Q f s.engine

theorem table_setFunction (T : Tabled σ F) (i : Nat) (source : String) (e : σ) :
    T.table ((Engine.setFunction i source : StateM σ (Except ScriptFault Unit)).run e).2
      = (T.table e).set i ((T.compile source).run e).1 := by
  have hset := T.run_setFunction i source e
  rw [Prod.mk.injEq] at hset
  rw [hset.2, T.table_withTable]

namespace Keeping

variable {T : Tabled σ F} {allowed : String → Prop} {source : String} {P : σ → Prop}
  {Q : F → σ → Prop}

/-- A function that is bound leaves those at other positions. -/
theorem setFunction_of_ne (h : Keeping T allowed source P Q) {other : String} (hs : allowed other)
    {i j : Nat} (hij : i ≠ j) {f : F} {e : σ} (hf : (T.table e).get? j = some f ∧ Q f e) :
    let e' := ((Engine.setFunction i other : StateM σ (Except ScriptFault Unit)).run e).2
    (T.table e').get? j = some f ∧ Q f e' := by
  refine ⟨?_, (h.lasts_function f).setFunction i other hs e hf.2⟩
  rw [T.table_setFunction, FunctionTable.get?_set_of_ne _ _ hij, hf.1]

/-- Functions that are bound leave those below them. -/
theorem bindFunctions_of_lt (h : Keeping T allowed source P Q) (sources : List String) :
    ∀ {i j : Nat} {f : F} {e : σ}, (∀ s ∈ sources, allowed s) → j < i →
      (T.table e).get? j = some f ∧ Q f e →
      let e' := ((Session.bindFunctions i sources).run e).2
      (T.table e').get? j = some f ∧ Q f e' := by
  induction sources with
  | nil => exact fun _ _ hf => hf
  | cons other rest ih =>
      intro i j f e hs hj hf
      have hset := h.setFunction_of_ne (hs other List.mem_cons_self) (Nat.ne_of_gt hj) hf
      exact ih (fun s hmem => hs s (List.mem_cons_of_mem _ hmem)) (Nat.lt_succ_of_lt hj) hset

/-- Of functions that are bound it is true at the positions of the source. -/
theorem bindFunctions (h : Keeping T allowed source P Q) (sources : List String) :
    ∀ {i j : Nat} {e : σ}, (∀ s ∈ sources, allowed s) → P e → sources[j]? = some source →
      let e' := ((Session.bindFunctions i sources).run e).2
      ∃ f, (T.table e').get? (i + j) = some f ∧ Q f e' := by
  induction sources with
  | nil =>
      intro i j e _ _ hj
      cases hj
  | cons other rest ih =>
      intro i j e hs he hj
      have hfirst := h.lasts.setFunction i other (hs other List.mem_cons_self) e he
      have hrest : ∀ s ∈ rest, allowed s := fun s hmem => hs s (List.mem_cons_of_mem _ hmem)
      cases j with
      | zero =>
          cases hj
          rcases h.setFunction i e he with ⟨f, hf⟩
          exact ⟨f, h.bindFunctions_of_lt rest hrest (Nat.lt_succ_self i) hf⟩
      | succ j =>
          have hnext := ih (i := i + 1) hrest hfirst hj
          rwa [Nat.add_right_comm] at hnext

/-- New functions, with a cut behind the last of them. -/
theorem setFunctions (h : Keeping T allowed source P Q) {sources : List String} {s : Session σ}
    (hs : ∀ s ∈ sources, allowed s) (he : P s.engine) {i : Nat} (hi : sources[i]? = some source) :
    ∃ f, (T.table ((Session.setFunctions sources).run s).2.engine).get? i = some f ∧
      Q f ((Session.setFunctions sources).run s).2.engine := by
  rcases h.bindFunctions sources (i := 0) hs he hi with ⟨f, hget, hf⟩
  rw [Nat.zero_add] at hget
  have hlt := (List.getElem?_eq_some_iff.mp hi).1
  refine ⟨f, ?_, (h.lasts_function f).truncateFunctions sources.length _ hf⟩
  change (T.table ((Engine.truncateFunctions sources.length : StateM σ Unit).run
    ((Session.bindFunctions 0 sources).run s.engine).2).2).get? i = some f
  rw [T.run_truncateFunctions, T.table_withTable, FunctionTable.get?_cut_of_lt _ hlt, hget]

/-- One more call. -/
theorem perform (h : Keeping T allowed source P Q) {p : Placed} {s : Session σ}
    (hs : Placing T source P Q p s) {c : Call} (hc : ∀ s ∈ c.sources, allowed s) :
    Placing T source P Q (c.place p) (c.perform.run s).2 := by
  have hafter : P (c.perform.run s).2.engine := h.lasts.perform c hc hs.holds
  -- A call that binds no functions leaves the table, and what is true of its functions.
  have hkept : T.table (c.perform.run s).2.engine = T.table s.engine → ∀ i : Nat,
      p.sources[i]? = some source → ∃ f, (T.table (c.perform.run s).2.engine).get? i = some f ∧
        Q f (c.perform.run s).2.engine := by
    intro htable i hi
    rcases hs.functions i hi with ⟨f, hget, hf⟩
    exact ⟨f, by rw [htable, hget], (h.lasts_function f).perform c hc hf⟩
  have hpreserved := T.kept (T.table s.engine)
  cases c with
  | initFunctions scene =>
      change Placing T source P Q _ ((Session.initFunctions scene).run s).2
      change P ((Session.initFunctions scene).run s).2.engine at hafter
      simp only [Call.sources, Scene.sources, List.mem_append] at hc
      rw [Call.place, ← hs.sceneId]
      by_cases hid : s.sceneId = some scene.id
      · rw [Session.run_initFunctions_of_eq hid, if_pos hid]
        exact hs
      · rw [Session.run_initFunctions_of_ne hid] at hafter ⊢
        rw [if_neg hid]
        have hinstalled := h.lasts.installGlobals scene.globals (fun s hmem => hc s (Or.inr hmem))
          s.engine hs.holds
        exact ⟨rfl, rfl, hafter, fun i hi =>
          h.setFunctions (fun s hmem => hc s (Or.inl hmem)) hinstalled hi⟩
  | setFunctions sources =>
      exact ⟨hs.sceneId, rfl, hafter, fun i hi => h.setFunctions hc hs.holds hi⟩
  | addFunction other =>
      have hother := hc other List.mem_cons_self
      refine ⟨hs.sceneId, ?_, hafter, fun i hi => ?_⟩
      · change s.functionCount + 1 = (p.sources ++ [other]).length
        rw [hs.functionCount, List.length_append, List.length_singleton]
      · change ∃ f, (T.table ((Engine.setFunction s.functionCount other).run s.engine).2).get? i
          = some f ∧ Q f ((Engine.setFunction s.functionCount other).run s.engine).2
        change (p.sources ++ [other])[i]? = some source at hi
        rcases Nat.lt_or_ge i p.sources.length with hlt | hge
        · rw [List.getElem?_append_left hlt] at hi
          rcases hs.functions i hi with ⟨f, hf⟩
          exact ⟨f, h.setFunction_of_ne hother
            (by rw [hs.functionCount]; exact Nat.ne_of_gt hlt) hf⟩
        · rw [List.getElem?_append_right hge] at hi
          rcases List.getElem?_eq_some_iff.mp hi with ⟨hlt, rfl⟩
          have hlast : i = s.functionCount := by
            rw [List.length_singleton] at hlt
            rw [hs.functionCount]
            omega
          rw [hlast]
          simp only [List.getElem_singleton] at h ⊢
          exact h.setFunction s.functionCount s.engine hs.holds
  | setGlobals globals =>
      exact ⟨hs.sceneId, hs.functionCount, hafter,
        hkept (hpreserved.installGlobals (fun _ _ => trivial) s.engine rfl)⟩
  | setFilterKey key value =>
      exact ⟨hs.sceneId, hs.functionCount, hafter,
        hkept (hpreserved.setFilterKey key value s.engine rfl)⟩
  | setFeature feature =>
      exact ⟨hs.sceneId, hs.functionCount, hafter, hkept (hpreserved.setFeature _ s.engine rfl)⟩
  | clear =>
      exact ⟨hs.sceneId, hs.functionCount, hafter, hkept (hpreserved.setFeature _ s.engine rfl)⟩
  | ask q =>
      have hasked : ((q.ask.run s : Answer × Session σ)).2.sceneId = s.sceneId ∧
          (q.ask.run s).2.functionCount = s.functionCount := by
        rw [run_ask]
        exact ⟨rfl, rfl⟩
      exact ⟨hasked.1.trans hs.sceneId, hasked.2.trans hs.functionCount, hafter,
        hkept (T.table_ask q s)⟩

theorem after (h : Keeping T allowed source P Q) (calls : List Call) :
    ∀ {p : Placed} {s : Session σ}, Placing T source P Q p s →
    (∀ c ∈ calls, ∀ s ∈ c.sources, allowed s) →
    Placing T source P Q (calls.foldl Call.place p) (MapStyling.after calls s) := by
  induction calls with
  | nil => exact fun hs _ => hs
  | cons c calls ih =>
      intro p s hs hc
      exact ih (h.perform hs (hc c List.mem_cons_self)) fun d hd =>
        hc d (List.mem_cons_of_mem _ hd)

end Keeping

end Engine.Tabled

end MapStyling
