import MapStyling.Proofs.WebEngine.Twins
import MapStyling.Proofs.WebLanguage.Reached

/-!
# Questions to Engines of Web Scripts

What a question leaves of an engine of web scripts.

When the scope of a question is closed, the stack and the table are what they were, and
only the context has gone on: there may be new objects in it, and a script may have
written to what was there. All of this is done by scripts, when the function is called and
when its result is converted. If after that nobody can tell the new context from the old
one, by means of all that is on the stack and in the table, then nobody can tell that the
question was asked.

## Main definitions

* `WebEngine.called`: What is held when a function was called.
* `WebEngine.LeavesShared`: Questions whose scripts assign to nothing that was there.
* `WebEngine.Unchanged`: Engines that differ in their contexts alone, and alike in these.

## Theorems

* `WebEngine.LeavesShared.answered`: Nobody can tell that such a question was answered.
* `WebEngine.LeavesShared.ask`: What it leaves.
* `WebEngine.LeavesShared.of_twins`: Whether a question is one hangs on nothing that nobody
  can tell.
-/

namespace MapStyling

open WebLanguage

namespace WebEngine

variable {L : WebLanguage} {S : String → Prop}

/-- An engine with the stack and the table of another one, in a context that looks the same
    to whoever has these. -/
structure Unchanged (S : String → Prop) (e e' : WebEngine L) : Prop where
  stack : e'.stack = e.stack
  functions : e'.functions = e.functions
  alike : Alike S e.holding e'.holding

/-- What is held when a function was called: its result, behind all that is on the stack and in
    the table. -/
def called (e : WebEngine L) (f : L.Value) : Holding L :=
  let r := (L.call f).run e.context
  ⟨r.2, e.holding.values ++ [valueOf r.1]⟩

/-- Whether the script of a question assigns to nothing that scripts share: when its function was
    called, however that has ended, and whatever values are converted afterwards, the context
    looks as it did to whoever has what was on the stack and in the table. -/
def LeavesShared (S : String → Prop) (e : WebEngine L) (q : Question) : Prop :=
  ∀ f, e.functions.get? q.index = some f → ∀ h, Reached Operation.Converts (e.called f) h →
    Alike S e.holding ⟨h.context, e.holding.values⟩

/-- A function of the table is held. -/
theorem exists_position {e : WebEngine L} {i : Nat} {f : L.Value}
    (hf : e.functions.get? i = some f) : ∃ j, e.holding.value j = f := by
  have hmem : f ∈ e.holding.values := by
    refine List.mem_append_right _ (List.mem_filterMap.mpr ⟨some f, ?_, rfl⟩)
    exact List.mem_of_getElem? (Option.join_eq_some_iff.mp hf)
  rcases List.mem_iff_getElem?.mp hmem with ⟨j, hj⟩
  exact ⟨j, Holding.value_eq hj⟩

/-- Calling it is an operation of the language. -/
theorem perform_call (e : WebEngine L) (j : Nat) :
    ((Operation.call j).perform e.holding).2 = e.called (e.holding.value j) := rfl

/-- After the call of a question, all that an engine has is held. -/
theorem twins_called {e : WebEngine L} {i : Nat} {f : L.Value}
    (hf : e.functions.get? i = some f) :
    Twins (Diagonal (Reached Operation.Converts (e.called f))) ((call i).run e).2
      ((call i).run e).2 := by
  have hheld : Joined (fun k k' => k' = k) e.holding.values e.holding.values e e :=
    joined_holding rfl rfl rfl
  have hcalled : Joined (Diagonal (Reached Operation.Converts (e.called f))) (e.called f).values
      (e.called f).values { e with context := (e.called f).context }
      { e with context := (e.called f).context } :=
    hheld.withContext ⟨rfl, .refl⟩ fun _ _ hv => hv.append _ _
  rw [run_call, hf]
  dsimp only
  rw [run_invoke]
  generalize hr : (L.call f).run e.context = r
  have hvalues : (e.called f).values = e.holding.values ++ [valueOf r.1] := by rw [← hr]; rfl
  have hcontext : (e.called f).context = r.2 := by rw [← hr]; rfl
  rw [hcontext] at hcalled
  -- The result is pushed if there is one.
  rcases r with ⟨fault | v, c⟩
  · exact hcalled.twins
  · rw [hvalues] at hcalled
    exact (hcalled.push (.last rfl v v)).2.twins

/-- All that a question does to the context is done by its script: the function is called, and its
    result is read. -/
theorem LeavesShared.answered {e : WebEngine L} {q : Question} (hq : LeavesShared S e q) :
    Alike S e.holding ⟨(Engine.answered q e).context, e.holding.values⟩ := by
  rcases hf : e.functions.get? q.index with _ | f
  · -- At an empty position there is nothing to call.
    have hsame : Engine.answered q e = e := by
      rw [Engine.answered_eq]
      change ((q.answer (pure ((call q.index).run e).1)).run ((call q.index).run e).2).2 = e
      rw [run_call, hf]
      rfl
    rw [hsame]
    exact .refl _
  · have hT : Bisimulation Operation.Converts
        (Diagonal (Reached Operation.Converts (e.called f))) :=
      .diagonal fun _ o ho hh => hh.perform o ho
    have hanswered := ((reads_twins hT fun _ ho => ho).answer q
      (.pure ((call q.index).run e).1)).stable_self _ (twins_called hf)
    have heq := Engine.answered_eq q e
    change Engine.answered q e = ((q.answer (pure ((call q.index).run e).1)).run
      ((call q.index).run e).2).2 at heq
    rw [← heq] at hanswered
    rcases hanswered with ⟨vs, vs', hjoined⟩
    exact hq f hf _ hjoined.related.2

theorem Unchanged.twins {e e' : WebEngine L} (h : Unchanged S e e') : Twins (Alike S) e e' :=
  twins_iff.mpr ⟨h.alike, by rw [h.stack], by rw [h.functions]⟩

/-- What a question leaves of a session. -/
theorem run_ask_snd (q : Question) (s : Session (WebEngine L)) : (q.ask.run s).2
    = { s with engine := { s.engine with context := (Engine.answered q s.engine).context } } := by
  have haround := answered_around q s.engine
  rw [Engine.run_ask_snd]
  change (⟨s.sceneId, s.functionCount, ⟨(Engine.answered q s.engine).context,
    (Engine.answered q s.engine).stack.cut s.engine.stack.height,
    (Engine.answered q s.engine).functions⟩⟩ : Session (WebEngine L)) = _
  rw [haround.opened, haround.functions]

/-- A question of this kind leaves an engine unchanged, and also one that is unchanged
    already. -/
theorem LeavesShared.ask {s s' : Session (WebEngine L)} {q : Question}
    (hq : LeavesShared S s.engine q) (h : Unchanged S s.engine s'.engine) :
    Unchanged S s.engine (q.ask.run s').2.engine := by
  -- The question is asked of the two engines side by side.
  have htwins := (twins_iff.mp (h.twins.ask Alike.bisimulation (fun _ ho => ho.allowed) q).2).1
  rw [run_ask_snd, run_ask_snd] at htwins
  rw [run_ask_snd]
  exact ⟨h.stack, h.functions, hq.answered.trans htwins⟩

/-- A question that does so on an engine does so on every engine that nobody can tell from it. -/
theorem LeavesShared.of_twins {e e' : WebEngine L} {q : Question} (hq : LeavesShared S e q)
    (h : Twins (Alike S) e e') : LeavesShared S e' q := by
  intro f' hf' h' hh'
  rcases twins_iff.mp h with ⟨halike, hheight, hslots⟩
  have hjoined := joined_holding halike hheight hslots
  have hfunction := hjoined.function q.index
  rw [hf'] at hfunction
  -- The function is called on both sides, and then the same is converted.
  rcases hf : e.functions.get? q.index with _ | f
  · rw [hf] at hfunction
    cases hfunction
  · rw [hf] at hfunction
    cases hfunction with
    | some hbeside =>
      rcases hbeside.position e.context e'.context with ⟨j, hj, hj'⟩
      have hcalled := (Alike.bisimulation.step _ _ halike (.call j) trivial).2
      rw [perform_call, perform_call] at hcalled
      change Alike S (e.called (Holding.value ⟨e.context, e.holding.values⟩ j))
        (e'.called (Holding.value ⟨e'.context, e'.holding.values⟩ j)) at hcalled
      rw [hj, hj'] at hcalled
      rcases Reached.exists_related Alike.bisimulation (fun o ho => ho.reads.allowed) hcalled hh'
        with ⟨k, hk, hrelated⟩
      rcases (List.prefix_append _ _).trans hk.prefix_values with ⟨ws, hws⟩
      rcases (List.prefix_append _ _).trans hh'.prefix_values with ⟨ws', hws'⟩
      have hconverted : Alike S ⟨k.context, e.holding.values ++ ws⟩
          ⟨h'.context, e'.holding.values ++ ws'⟩ := by
        rw [hws, hws']
        exact hrelated
      exact halike.symm.trans ((hq f hf k hk).trans (hconverted.front halike.length))

theorem LeavesShared.mono {S' : String → Prop} {e : WebEngine L} {q : Question}
    (hq : LeavesShared S e q) (hS : ∀ source, S' source → S source) : LeavesShared S' e q :=
  fun f hf h hh => (hq f hf h hh).mono hS

end WebEngine

end MapStyling
