import MapStyling.Proofs.BracketedRuns
import MapStyling.Proofs.Calls
import MapStyling.Proofs.StaleHandles
import Mathlib.Data.List.Nodup

/-!
# Live Handles

What is read through the handles of values whose scopes are open.

A handle is a position on a stack, and a position is given to one value after the other. What
keeps their holders apart is that scopes are left in the opposite order to that in which they were
entered: a cut takes away the values of the scope that was entered last, and these are on top. So
the values that live have the positions of the stack one after the other, in the order in which
they were made, and that is the whole invariant. Two of them never share a position, and a change
under the handle of one of them reaches no other.

A handle has 32 bits, and a position is cut to them when it is handed out. So a value may be made
only while fewer than `2 ^ 32` others live.

## Main definitions

* `ValueStack.Holdings`: A stack, the handles handed out, and what open scopes go back to.
* `ValueStack.run`: The holdings that steps lead to.
* `ValueStack.Seated`: The values that live have the positions of the stack.

## Theorems

* `ValueStack.Orderly.seated`: They have them after every orderly run.
* `ValueStack.value?_append`: A value that lives on is read with the changes made to it.
* `ValueStack.exists_handle_twice`: Where no position is left, a handle is handed out twice.
* `ValueStack.scopes_keep_values`: Handles, values and scopes throughout an orderly run.
* `Engine.Stack.run_inScope`: The scopes of engines are scopes of such runs.
-/

namespace MapStyling

/-- A position in the 32 bits of a handle, which lose what does not fit. -/
def Handle.narrow (h : Handle) : Handle := ⟨h.index % UInt32.size⟩

namespace ValueStack

variable {α : Type}

/-- A stack, the handles of the values that were made, and the heights that the open scopes go back
    to, the scope that was entered last in front. -/
structure Holdings (α : Type) where
  stack : ValueStack α
  handles : List Handle
  marks : List Nat

namespace Holdings

/-- The value that is read under the handle of the `n`-th value. -/
def value? (t : Holdings α) (n : Nat) : Option α := t.handles[n]?.bind t.stack.get?

/-- A step with a stack. To enter a scope is to take down the height of the stack, and to leave it
    is to cut the stack back to that height. -/
def perform (t : Holdings α) : Step α → Holdings α
  | .make a =>
    { t with stack := (t.stack.push a).2, handles := t.handles ++ [(t.stack.push a).1.narrow] }
  | .change n f => { t with stack := t.handles[n]?.elim t.stack (t.stack.modify · f) }
  | .enter => { t with marks := t.stack.height :: t.marks }
  | .leave => { t with stack := t.marks.head?.elim t.stack t.stack.cut, marks := t.marks.tail }

end Holdings

/-- The holdings that steps lead to from an empty stack. What is to be on the stack before any scope
    is entered is made by the first steps. -/
def run (steps : List (Step α)) : Holdings α :=
  steps.foldl Holdings.perform ⟨.empty, [], []⟩

section

variable {d n : Nat} {a v : α} {s : Step α} {t : Holdings α}
  {steps older newer before inside : List (Step α)}

theorem run_append : run (older ++ newer) = newer.foldl Holdings.perform (run older) :=
  List.foldl_append ..

theorem run_concat : run (steps ++ [s]) = (run steps).perform s :=
  List.foldl_concat ..

theorem height_perform_change (t : Holdings α) (n : Nat) (f : α → α) :
    (t.perform (.change n f)).stack.height = t.stack.height := by
  change (t.handles[n]?.elim t.stack (t.stack.modify · f)).height = t.stack.height
  rcases t.handles[n]? with _ | h
  · rfl
  · exact height_modify ..

/-- Handles are handed out one for every value, and none is taken back. -/
theorem handles_foldl_perform (steps : List (Step α)) (t : Holdings α) :
    ∃ more, (steps.foldl Holdings.perform t).handles = t.handles ++ more ∧
      more.length = made steps := by
  induction steps generalizing t with
  | nil => exact ⟨[], (List.append_nil _).symm, rfl⟩
  | cons s steps ih =>
      obtain ⟨more, hmore, hlength⟩ := ih (t.perform s)
      cases s with
      | make a =>
          refine ⟨(t.stack.push a).1.narrow :: more, ?_, ?_⟩
          · exact hmore.trans (List.append_assoc ..)
          · rw [made_make_cons, List.length_cons, hlength]
      | change _ _ | enter | leave => exact ⟨more, hmore, hlength⟩

theorem length_handles_run (steps : List (Step α)) : (run steps).handles.length = made steps := by
  obtain ⟨more, hmore, hlength⟩ := handles_foldl_perform steps ⟨.empty, [], []⟩
  rw [run, hmore]
  exact hlength

/-- The handle of a value stays what it was when it was handed out. -/
theorem getElem?_handles_append (hn : n < made older) :
    (run (older ++ newer)).handles[n]? = (run older).handles[n]? := by
  obtain ⟨more, hmore, _⟩ := handles_foldl_perform newer (run older)
  rw [run_append, hmore, List.getElem?_append_left]
  rw [length_handles_run]
  exact hn

/-- The marks of the scopes that steps enter and do not leave lie on top of the marks before. -/
theorem marks_foldl_perform {marks base : List Nat} (ht : t.marks = marks ++ base)
    (h : depth? marks.length steps = some d) :
    ∃ more, (steps.foldl Holdings.perform t).marks = more ++ base ∧ more.length = d := by
  -- The depth counts the marks of the scopes entered since, so none of the others is taken.
  induction steps generalizing t marks with
  | nil => exact ⟨marks, ht, Option.some.inj h⟩
  | cons s steps ih =>
      rw [depth?_cons, Option.bind_eq_some_iff] at h
      obtain ⟨e, he, hsteps⟩ := h
      rw [List.foldl_cons]
      cases s with
      | make _ | change _ _ =>
          obtain rfl := Option.some.inj he
          exact ih ht hsteps
      | enter =>
          obtain rfl := Option.some.inj he
          have hentered : (t.perform .enter).marks = (t.stack.height :: marks) ++ base :=
            congrArg (t.stack.height :: ·) ht
          exact ih hentered hsteps
      | leave =>
          cases marks with
          | nil => cases he
          | cons height marks =>
              obtain rfl := Option.some.inj he
              exact ih (congrArg List.tail ht) hsteps

/-- A scope that is left goes back to the height at which it was entered. -/
theorem run_scope (h : Balanced inside) :
    run (before ++ .enter :: inside ++ [.leave]) =
      { run (before ++ .enter :: inside) with
        stack := (run (before ++ .enter :: inside)).stack.cut (run before).stack.height
        marks := (run before).marks } := by
  have hmarks : (run (before ++ .enter :: inside)).marks
      = (run before).stack.height :: (run before).marks := by
    have hentered : ((run before).perform .enter).marks
        = [] ++ (run before).stack.height :: (run before).marks := rfl
    obtain ⟨more, hmore, hlength⟩ := marks_foldl_perform hentered h
    rw [List.length_eq_zero_iff.mp hlength] at hmore
    rw [run_append]
    exact hmore
  rw [run_concat]
  simp only [Holdings.perform, hmarks, List.head?_cons, Option.elim_some, List.tail_cons]

/-- The values that live have the positions of the stack, one after the other. -/
def Seated (steps : List (Step α)) : Prop :=
  (live steps).map ((run steps).handles[·]?)
    = (List.range (run steps).stack.height).map fun i => some ⟨i⟩

theorem Seated.length_live (h : Seated steps) :
    (live steps).length = (run steps).stack.height := by
  have hlength := congrArg List.length h
  rwa [List.length_map, List.length_map, List.length_range] at hlength

theorem Seated.exists_handle (h : Seated steps) (hn : n ∈ live steps) :
    ∃ i, i < (run steps).stack.height ∧ (run steps).handles[n]? = some ⟨i⟩ := by
  have hmem : (run steps).handles[n]? ∈ (live steps).map ((run steps).handles[·]?) :=
    List.mem_map_of_mem hn
  rw [h] at hmem
  obtain ⟨i, hi, heq⟩ := List.mem_map.mp hmem
  exact ⟨i, List.mem_range.mp hi, heq.symm⟩

theorem Seated.exists_value (h : Seated steps) (hn : n ∈ live steps) :
    ∃ v, (run steps).value? n = some v := by
  obtain ⟨i, hi, hhandle⟩ := h.exists_handle hn
  refine ⟨(run steps).stack.values[i], ?_⟩
  rw [Holdings.value?, hhandle]
  exact Array.getElem?_eq_getElem hi

/-- No two values that live have the same handle. -/
theorem Seated.nodup_handles (h : Seated steps) :
    ((live steps).map ((run steps).handles[·]?)).Nodup := by
  rw [h]
  exact List.nodup_range.map fun i j heq => Handle.mk.inj (Option.some.inj heq)

/-- Values that were made before keep their seats if the same values live and the stack is as high
    as it was. -/
theorem Seated.append (h : Seated older) (hlive : live (older ++ newer) = live older)
    (hheight : (run (older ++ newer)).stack.height = (run older).stack.height) :
    Seated (older ++ newer) := by
  unfold Seated
  rw [hlive, hheight, ← h]
  exact List.map_congr_left fun n hn => getElem?_handles_append (lt_of_mem_live hn)

/-- A value that is made gets the position on top as its handle. -/
theorem Seated.handle_make (h : Seated steps) (hroom : (live steps).length < UInt32.size) :
    (run (steps ++ [.make a])).handles[made steps]? = some ⟨(run steps).stack.height⟩ := by
  rw [run_concat, ← length_handles_run]
  refine List.getElem?_concat_length.trans ?_
  rw [h.length_live] at hroom
  exact congrArg (fun i => some (Handle.mk i)) (Nat.mod_eq_of_lt hroom)

theorem Seated.value?_make (h : Seated steps) (hroom : (live steps).length < UInt32.size) :
    (run (steps ++ [.make a])).value? (made steps) = some a := by
  rw [Holdings.value?, h.handle_make hroom, run_concat]
  exact get?_push_self ..

/-- A value that is made takes the position on top. -/
theorem Seated.make (h : Seated steps) (hroom : (live steps).length < UInt32.size) :
    Seated (steps ++ [.make a]) := by
  have hold : (live steps).map ((run (steps ++ [.make a])).handles[·]?)
      = (live steps).map ((run steps).handles[·]?) :=
    List.map_congr_left fun n hn => getElem?_handles_append (lt_of_mem_live hn)
  have hheight : (run (steps ++ [.make a])).stack.height = (run steps).stack.height + 1 := by
    rw [run_concat]
    exact height_push ..
  unfold Seated
  rw [live_make, List.map_append, hold, h, hheight, List.range_succ, List.map_append,
    List.map_singleton, List.map_singleton, h.handle_make hroom]

/-- A scope that is left leaves the stack as high as it was. -/
theorem height_run_scope (h : Balanced inside) (hbefore : Seated before)
    (hinside : Seated (before ++ .enter :: inside)) :
    (run (before ++ .enter :: inside ++ [.leave])).stack.height = (run before).stack.height := by
  have hle : (live before).length ≤ (live (before ++ .enter :: inside)).length := by
    rw [live_append (stays_enter_cons h.stays), List.length_append]
    exact Nat.le_add_right ..
  rw [hbefore.length_live, hinside.length_live] at hle
  rw [run_scope h, height_cut, Nat.min_eq_left hle]

/-- What one more step does to the seats. Leaving a scope goes back to the seats that there were
    when it was entered, so these have to be known as well. -/
theorem Seated.concat (h : ∀ seen, seen <+: steps → Seated seen) (hs : s.Permitted steps) :
    Seated (steps ++ [s]) := by
  have hsteps : Seated steps := h steps (List.prefix_refl steps)
  cases s with
  | make a => exact hsteps.make hs
  | change n f =>
      refine hsteps.append live_change ?_
      rw [run_concat]
      exact height_perform_change ..
  | enter =>
      refine hsteps.append live_enter ?_
      rw [run_concat]
      rfl
  | leave =>
      -- The scope that is left was entered behind an earlier part of the run, and the same values
      -- live as then, on a stack of the same height.
      obtain ⟨before, inside, rfl, hinside⟩ := exists_entered hs
      have hbefore : Seated before := h before (List.prefix_append ..)
      rw [List.append_assoc]
      refine hbefore.append ?_ ?_
      · rw [← List.append_assoc]
        exact live_scope hinside
      · rw [← List.append_assoc]
        exact height_run_scope hinside hbefore hsteps

/-- The values that live have the positions of the stack all along an orderly run. -/
theorem Orderly.seated_seen (h : Orderly steps) {seen : List (Step α)}
    (hseen : seen <+: steps) : Seated seen := by
  induction steps using List.reverseRecOn generalizing seen with
  | nil =>
      rw [List.prefix_nil.mp hseen]
      rfl
  | append_singleton steps s ih =>
      rcases List.prefix_concat_iff.mp hseen with rfl | hold
      · exact .concat (fun seen hseen => ih h.of_append hseen) (h steps s [] rfl)
      · exact ih h.of_append hold

theorem Orderly.seated (h : Orderly steps) : Seated steps :=
  h.seated_seen (List.prefix_refl steps)

/-- A step makes of a value that lives behind it what it says, and nothing else. -/
theorem value?_concat (h : Orderly (steps ++ [s])) (hn : n ∈ live steps)
    (hnext : n ∈ live (steps ++ [s])) (hv : (run steps).value? n = some v) :
    (run (steps ++ [s])).value? n = some (s.changed n v) := by
  have hseated : Seated steps := h.of_append.seated
  -- The value is in one position before the step and after it, so it is read there.
  obtain ⟨i, hi, hhandle⟩ := hseated.exists_handle hn
  have hkept : (run (steps ++ [s])).handles[n]? = some ⟨i⟩ :=
    (getElem?_handles_append (lt_of_mem_live hn)).trans hhandle
  rw [Holdings.value?, hhandle] at hv
  rw [Holdings.value?, hkept]
  change (run steps).stack.get? ⟨i⟩ = some v at hv
  change (run (steps ++ [s])).stack.get? ⟨i⟩ = some (s.changed n v)
  cases s with
  | make a =>
      rw [run_concat]
      exact (get?_push_of_lt _ a ⟨i⟩ hi).trans hv
  | change m f =>
      have hm : m ∈ live steps := h steps _ [] rfl
      obtain ⟨j, _, hchanged⟩ := hseated.exists_handle hm
      have hstack : (run (steps ++ [.change m f])).stack = (run steps).stack.modify ⟨j⟩ f := by
        rw [run_concat]
        simp only [Holdings.perform, hchanged, Option.elim_some]
      rw [hstack, Step.changed]
      by_cases hmn : m = n
      · obtain rfl := hmn
        rw [hhandle, Option.some.injEq] at hchanged
        rw [← hchanged, get?_modify_self, hv, if_pos rfl]
        rfl
      · -- Two values that live have different handles, so the change is made somewhere else.
        have hne : (⟨j⟩ : Handle) ≠ ⟨i⟩ := fun heq => hmn <|
          List.inj_on_of_nodup_map hseated.nodup_handles hm hn <|
            hchanged.trans ((congrArg some heq).trans hhandle.symm)
        rw [get?_modify_of_ne _ _ hne, hv, if_neg hmn]
  | enter =>
      rw [run_concat]
      exact hv
  | leave =>
      obtain ⟨before, inside, rfl, hinside⟩ := exists_entered (h steps _ [] rfl)
      -- The value lived when the scope was entered, so it lies below the mark.
      rw [live_scope hinside] at hnext
      obtain ⟨j, hj, hbefore⟩ :=
        (h.seated_seen ⟨_, (List.append_assoc ..).symm⟩ : Seated before).exists_handle hnext
      rw [getElem?_handles_append (lt_of_mem_live hnext), hbefore, Option.some.injEq] at hhandle
      rw [run_scope hinside, get?_cut, ← hhandle, if_pos hj, hhandle]
      exact hv

/-- A value that lives on through more steps is read with the changes that they make to it. -/
theorem value?_append (h : Orderly (older ++ newer)) (hstays : Stays newer)
    (hn : n ∈ live older) (hv : (run older).value? n = some v) :
    (run (older ++ newer)).value? n = some (newer.foldl (fun v s => s.changed n v) v) := by
  induction newer using List.reverseRecOn with
  | nil =>
      rw [List.append_nil]
      exact hv
  | append_singleton newer s ih =>
      rw [← List.append_assoc] at h
      have hlast := value?_concat h (mem_live_append hn hstays.of_append)
        (by
          rw [List.append_assoc]
          exact mem_live_append hn hstays)
        (ih h.of_append hstays.of_append)
      rw [List.append_assoc] at hlast
      rw [hlast, List.foldl_concat]

/-- A value whose scope has not been left since it was made is read with the changes made to it. -/
theorem value?_made (h : Orderly (older ++ .make a :: newer)) (hstays : Stays newer) :
    (run (older ++ .make a :: newer)).value? (made older)
      = some (newer.foldl (fun v s => s.changed (made older) v) a) := by
  rw [← List.singleton_append, ← List.append_assoc] at h ⊢
  exact value?_append h hstays (mem_live_made rfl)
    (h.of_append.of_append.seated.value?_make (h.of_append older _ [] rfl))

/-- With `2 ^ 32` values that live, the next one gets the handle of the oldest of them. -/
theorem exists_handle_twice (h : Orderly steps) (hfull : (live steps).length = UInt32.size) :
    ∃ n ∈ live steps, (run (steps ++ [.make a])).handles[n]?
      = (run (steps ++ [.make a])).handles[made steps]? := by
  have hheight : (run steps).stack.height = UInt32.size := h.seated.length_live.symm.trans hfull
  have hfirst : some (Handle.mk 0) ∈ (live steps).map ((run steps).handles[·]?) := by
    rw [h.seated, hheight]
    exact List.mem_map_of_mem (List.mem_range.mpr (by decide))
  obtain ⟨n, hn, hhandle⟩ := List.mem_map.mp hfirst
  refine ⟨n, hn, ?_⟩
  rw [getElem?_handles_append (lt_of_mem_live hn), hhandle, run_concat, ← length_handles_run]
  refine (List.getElem?_concat_length.trans ?_).symm
  exact congrArg (fun i => some (Handle.mk (i % UInt32.size))) hheight

end

/-- Throughout an orderly run the values that live are the values on the stack, and no two of them
    have the same handle. A value lives and is read under its handle if and only if its scope has
    not been left since it was made, and it is read with all changes made to it since then. And when
    a scope is left, the values that live are those that lived when it was entered, under the
    handles that they had, and with the changes made in the scope. -/
theorem scopes_keep_values {steps : List (Step α)} (h : Orderly steps) :
    (∀ seen, seen <+: steps →
      (run seen).stack.height = (live seen).length ∧
      ((live seen).map ((run seen).handles[·]?)).Nodup ∧
      ∀ n v, n ∈ live seen ∧ (run seen).value? n = some v ↔
        ∃ older a newer, seen = older ++ .make a :: newer ∧ made older = n ∧ Stays newer ∧
          newer.foldl (fun v s => s.changed n v) a = v) ∧
    (∀ before inside, before ++ .enter :: inside ++ [.leave] <+: steps → Balanced inside →
      live (before ++ .enter :: inside ++ [.leave]) = live before ∧
      ∀ n ∈ live before,
        (run (before ++ .enter :: inside ++ [.leave])).handles[n]? = (run before).handles[n]? ∧
        (run (before ++ .enter :: inside ++ [.leave])).value? n
          = ((run before).value? n).map fun v => inside.foldl (fun v s => s.changed n v) v) := by
  constructor
  · intro seen hseen
    have horderly := h.of_seen hseen
    refine ⟨horderly.seated.length_live.symm, horderly.seated.nodup_handles, fun n v => ?_⟩
    constructor
    · rintro ⟨hn, hv⟩
      obtain ⟨older, a, newer, rfl, rfl, hstays⟩ := mem_live_iff.mp hn
      rw [value?_made horderly hstays, Option.some.injEq] at hv
      exact ⟨older, a, newer, rfl, rfl, hstays, hv⟩
    · rintro ⟨older, a, newer, rfl, rfl, hstays, rfl⟩
      exact ⟨mem_live_made hstays, value?_made horderly hstays⟩
  · intro before inside hseen hinside
    refine ⟨live_scope hinside, fun n hn => ?_⟩
    rw [List.append_assoc] at hseen ⊢
    have horderly := h.of_seen hseen
    obtain ⟨v, hv⟩ := horderly.of_append.seated.exists_value hn
    refine ⟨getElem?_handles_append (lt_of_mem_live hn), ?_⟩
    -- To enter the scope and to leave it changes no value.
    rw [value?_append horderly (balanced_scope hinside).stays hn hv, hv, List.cons_append,
      List.foldl_cons, List.foldl_concat]
    rfl

/-- A list that is made in a scope and filled from inner scopes, of which one has been left. What
    is made after it takes the position of what was made in it. -/
def filledList : List (Step String) :=
  [.enter, .make "[", .make "a", .change 0 (· ++ "a"), .enter, .make "b", .change 0 (· ++ ", b"),
    .leave, .make "c", .enter, .change 0 (· ++ ", c")]

theorem scopes_keep_values_filledList :
    Orderly filledList ∧ live filledList = [0, 1, 3] ∧
    (run filledList).handles[2]? = (run filledList).handles[3]? ∧
    ((live filledList).map ((run filledList).handles[·]?)).Nodup ∧
    (run filledList).value? 0 = some "[a, b, c" ∧
    live (filledList.take 8) = [0, 1] ∧
    (run (filledList.take 8)).value? 0 = some "[a, b" := by
  have horderly : Orderly filledList := by decide
  obtain ⟨hvalues, hscopes⟩ := scopes_keep_values horderly
  obtain ⟨_, hdistinct, hread⟩ := hvalues filledList (List.prefix_refl filledList)
  have hlist := (hread 0 "[a, b, c").mpr
    ⟨[.enter], "[", filledList.drop 2, rfl, rfl, by decide, by decide⟩
  obtain ⟨hlive, hkept⟩ := hscopes (filledList.take 4) [.make "b", .change 0 (· ++ ", b")]
    ⟨filledList.drop 8, rfl⟩ (by decide)
  exact ⟨horderly, by decide, by decide, hdistinct, hlist.2, hlive,
    (hkept 0 (by decide)).2⟩

end ValueStack

/-- A scope around an action of an engine is a scope of a run, for what is on its stack. The engine
    has to mark the height of the stack, as all engines at hand do. -/
theorem Engine.Stack.run_inScope {σ α β : Type} [Engine σ] (V : Engine.Stack σ α)
    (hmark : ∀ e, (Engine.mark e).height = (V.stack e).height) {action : StateM σ β} {e : σ}
    {before inside : List (ValueStack.Step α)} (hinside : ValueStack.Balanced inside)
    (hbefore : V.stack e = (ValueStack.run before).stack)
    (haction : V.stack (action.run e).2 = (ValueStack.run (before ++ .enter :: inside)).stack) :
    V.stack ((Engine.inScope action).run e).2
      = (ValueStack.run (before ++ .enter :: inside ++ [.leave])).stack := by
  rw [Engine.run_inScope, V.stack_reset, hmark, hbefore, haction, ValueStack.run_scope hinside]

end MapStyling
