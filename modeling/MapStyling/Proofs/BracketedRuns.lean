import Mathlib.Data.List.Basic
import Mathlib.Data.List.Induction

/-!
# Bracketed Runs

Steps that make values and change them, in scopes that are entered and left.

A step of a run says which value it changes by when that value was made, so what a run means can
be said before anything is known of stacks and handles. A scope is left only after it was entered,
and always the one that was entered last. A value belongs to the scope that it was made in, and it
lives as long as this scope has not been left. Both are told by counting how deep in scopes the
steps lead: a value lives if and only if the steps since it was made do not leave the scope that
they begin in.

Steps that stay in the scope that they begin in take nothing away, they only add values. A scope
that is entered and left again takes away all that was made in it, so behind it live the values
that lived before it.

## Main definitions

* `ValueStack.Step`: What is done in a run.
* `ValueStack.depth?`: How deep in scopes steps lead.
* `ValueStack.Stays`, `ValueStack.Balanced`: Steps that do not leave their scope, and steps that
  have left all others as well.
* `ValueStack.live`: The values that live after steps.
* `ValueStack.Orderly`: Runs in which every step has what it needs.

## Theorems

* `ValueStack.mem_live_iff`: A value lives while the scope that it was made in has not been left.
* `ValueStack.live_append`: Steps that stay in their scope only add values.
* `ValueStack.live_scope`: Behind a scope live the values that lived before it.
* `ValueStack.exists_entered`: An open scope was entered somewhere.
-/

namespace MapStyling

namespace ValueStack

variable {α : Type}

/-- What is done in a run. Values go by how many were made before them. -/
inductive Step (α : Type)
  | make (a : α)
  | change (n : Nat) (f : α → α)
  | enter
  | leave

namespace Step

/-- Whether a step makes a value. -/
def makes : Step α → Bool
  | make _ => true
  | _ => false

/-- How deep in scopes a step leads. Where no scope is open, none can be left. -/
def depth? : Nat → Step α → Option Nat
  | d, enter => some (d + 1)
  | 0, leave => none
  | d + 1, leave => some d
  | d, _ => some d

/-- What a step makes of the `n`-th value. -/
def changed (n : Nat) : Step α → α → α
  | change m f, v => if m = n then f v else v
  | _, v => v

end Step

/-- How deep in scopes steps lead from a depth; nothing if they leave a scope when none is open. -/
def depth? (d : Nat) (steps : List (Step α)) : Option Nat :=
  steps.foldlM Step.depth? d

/-- Steps that do not leave the scope that they begin in. -/
def Stays (steps : List (Step α)) : Prop := (depth? 0 steps).isSome

/-- Steps that do not leave the scope that they begin in, but all that they enter. -/
def Balanced (steps : List (Step α)) : Prop := depth? 0 steps = some 0

instance (steps : List (Step α)) : Decidable (Stays steps) :=
  inferInstanceAs (Decidable ((depth? 0 steps).isSome = true))

instance (steps : List (Step α)) : Decidable (Balanced steps) :=
  inferInstanceAs (Decidable (depth? 0 steps = some 0))

/-- How many values steps make. -/
def made (steps : List (Step α)) : Nat := steps.countP Step.makes

/-- The values that live after steps, of those that the steps make, if `k` were made before. -/
def liveFrom : Nat → List (Step α) → List Nat
  | _, [] => []
  | k, .make _ :: newer =>
    if Stays newer then k :: liveFrom (k + 1) newer else liveFrom (k + 1) newer
  | k, .change _ _ :: newer | k, .enter :: newer | k, .leave :: newer => liveFrom k newer

/-- The values that live after steps: the scope that they were made in has not been left. -/
def live (steps : List (Step α)) : List Nat := liveFrom 0 steps

/-- What a step needs of the steps before it. There has to be a handle left for a value that is
    made, a value that is changed has to live, and a scope that is left has to have been entered. -/
def Step.Permitted (older : List (Step α)) : Step α → Prop
  | make _ => (live older).length < UInt32.size
  | change n _ => n ∈ live older
  | enter => True
  | leave => Stays (older ++ [.leave])

/-- A run in which every step is permitted by the steps before it. -/
def Orderly (steps : List (Step α)) : Prop :=
  ∀ older s newer, steps = older ++ s :: newer → s.Permitted older

instance (older : List (Step α)) (s : Step α) : Decidable (s.Permitted older) :=
  match s with
  | .make _ => inferInstanceAs (Decidable ((live older).length < UInt32.size))
  | .change n _ => inferInstanceAs (Decidable (n ∈ live older))
  | .enter => inferInstanceAs (Decidable True)
  | .leave => inferInstanceAs (Decidable (Stays (older ++ [.leave])))

theorem orderly_iff_forall_index {steps : List (Step α)} :
    Orderly steps ↔ ∀ i : Fin steps.length, steps[i].Permitted (steps.take i) := by
  constructor
  · intro h i
    exact h (steps.take i) steps[i] (steps.drop (i + 1)) (by simp)
  · rintro h older s newer rfl
    have hs := h ⟨older.length, by simp⟩
    simpa using hs

instance (steps : List (Step α)) : Decidable (Orderly steps) :=
  decidable_of_iff _ orderly_iff_forall_index.symm

section

variable {d e k n : Nat} {a : α} {s : Step α} {steps older newer before inside : List (Step α)}

theorem depth?_cons : depth? d (s :: steps) = (s.depth? d).bind (depth? · steps) :=
  List.foldlM_cons ..

theorem depth?_append :
    depth? d (older ++ newer) = (depth? d older).bind (depth? · newer) :=
  List.foldlM_append ..

theorem made_append : made (older ++ newer) = made older + made newer :=
  List.countP_append

theorem made_make_cons : made (.make a :: steps) = made steps + 1 :=
  List.countP_cons_of_pos rfl

/-- A step goes on from a greater depth as it does from a smaller one. -/
theorem Step.depth?_add (h : s.depth? d = some e) (k : Nat) : s.depth? (k + d) = some (k + e) := by
  cases s with
  | make _ | change _ _ | enter => exact congrArg (Option.map (k + ·)) h
  | leave =>
      cases d with
      | zero => cases h
      | succ d =>
          cases h
          rfl

/-- Steps go on from a greater depth as they do from a smaller one. -/
theorem depth?_add (h : depth? d steps = some e) (k : Nat) :
    depth? (k + d) steps = some (k + e) := by
  induction steps generalizing d with
  | nil =>
      cases h
      rfl
  | cons s steps ih =>
      rw [depth?_cons, Option.bind_eq_some_iff] at h ⊢
      obtain ⟨f, hf, hsteps⟩ := h
      exact ⟨k + f, s.depth?_add hf k, ih hsteps⟩

/-- Steps that stay in the scope that they begin in can be taken at any depth. -/
theorem Stays.isSome_depth? (h : Stays steps) (d : Nat) : (depth? d steps).isSome := by
  obtain ⟨e, he⟩ := Option.isSome_iff_exists.mp h
  exact Option.isSome_iff_exists.mpr ⟨d + e, depth?_add he d⟩

theorem Stays.append_iff (h : Stays newer) : Stays (older ++ newer) ↔ Stays older := by
  unfold Stays
  rw [depth?_append]
  rcases depth? 0 older with _ | d
  · rfl
  · exact iff_of_true (h.isSome_depth? d) rfl

theorem Stays.of_append (h : Stays (older ++ newer)) : Stays older := by
  unfold Stays at h ⊢
  rw [depth?_append] at h
  exact Option.isSome_of_isSome_bind h

theorem Balanced.stays (h : Balanced steps) : Stays steps :=
  Option.isSome_iff_exists.mpr ⟨0, h⟩

theorem stays_enter_cons (h : Stays inside) : Stays (.enter :: inside) :=
  h.isSome_depth? 1

/-- A scope leads back to the depth that it was entered from. -/
theorem balanced_scope (h : Balanced inside) : Balanced (.enter :: inside ++ [.leave]) := by
  -- The steps inside lead from depth one to depth one, as they do from zero to zero.
  change depth? 0 (.enter :: (inside ++ [.leave])) = some 0
  rw [depth?_cons]
  change depth? (1 + 0) (inside ++ [.leave]) = some 0
  rw [depth?_append, depth?_add h 1]
  rfl

theorem liveFrom_append (h : Stays newer) :
    liveFrom k (older ++ newer) = liveFrom k older ++ liveFrom (k + made older) newer := by
  induction older generalizing k with
  | nil => rfl
  | cons s older ih =>
      cases s with
      | make a =>
          rw [List.cons_append, liveFrom, liveFrom, ih, made_make_cons, Nat.add_right_comm,
            Nat.add_assoc]
          -- Whether the scope of the first value is left is decided before the newer steps.
          simp only [h.append_iff]
          split
          · rfl
          · rfl
      | change _ _ | enter | leave => exact ih

/-- Steps that stay in their scope take no value away. -/
theorem live_append (h : Stays newer) :
    live (older ++ newer) = live older ++ liveFrom (made older) newer := by
  unfold live
  rw [liveFrom_append h, Nat.zero_add]

theorem mem_live_append (hn : n ∈ live older) (h : Stays newer) : n ∈ live (older ++ newer) := by
  rw [live_append h]
  exact List.mem_append_left _ hn

/-- A value lives after steps that made it and have not left the scope that they made it in. -/
theorem mem_live_made (h : Stays newer) : made older ∈ live (older ++ .make a :: newer) := by
  have hstays : Stays (.make a :: newer) := h
  rw [live_append hstays, liveFrom, if_pos h]
  exact List.mem_append_right _ List.mem_cons_self

/-- Every value that lives was made by one of the steps, and the steps since have not left the scope
    that it was made in. -/
theorem exists_made_of_mem_liveFrom (hn : n ∈ liveFrom k steps) :
    ∃ older a newer, steps = older ++ .make a :: newer ∧ k + made older = n ∧ Stays newer := by
  induction steps generalizing k with
  | nil => cases hn
  | cons s steps ih =>
      cases s with
      | make a =>
          -- A value behind the first one is counted from the first one on.
          have hbehind : n ∈ liveFrom (k + 1) steps → ∃ older b newer,
              .make a :: steps = older ++ .make b :: newer ∧ k + made older = n ∧
                Stays newer := by
            intro h
            obtain ⟨older, b, newer, rfl, rfl, hstays⟩ := ih h
            refine ⟨.make a :: older, b, newer, rfl, ?_, hstays⟩
            rw [made_make_cons, Nat.add_assoc, Nat.add_comm 1]
          rw [liveFrom] at hn
          split at hn
          · next hstays =>
            rcases List.mem_cons.mp hn with rfl | hn
            · exact ⟨[], a, steps, rfl, rfl, hstays⟩
            · exact hbehind hn
          · exact hbehind hn
      | change _ _ | enter | leave =>
          obtain ⟨older, b, newer, rfl, hmade, hstays⟩ := ih hn
          exact ⟨_ :: older, b, newer, rfl, hmade, hstays⟩

/-- The values that live are those whose scope has not been left since they were made. -/
theorem mem_live_iff : n ∈ live steps ↔
    ∃ older a newer, steps = older ++ .make a :: newer ∧ made older = n ∧ Stays newer := by
  constructor
  · intro hn
    obtain ⟨older, a, newer, hsteps, hmade, hstays⟩ := exists_made_of_mem_liveFrom hn
    exact ⟨older, a, newer, hsteps, (Nat.zero_add _).symm.trans hmade, hstays⟩
  · rintro ⟨older, a, newer, rfl, rfl, hstays⟩
    exact mem_live_made hstays

theorem lt_of_mem_live (h : n ∈ live steps) : n < made steps := by
  obtain ⟨older, a, newer, rfl, rfl, _⟩ := mem_live_iff.mp h
  rw [made_append, made_make_cons]
  omega

theorem live_make : live (older ++ [.make a]) = live older ++ [made older] :=
  live_append rfl

theorem live_change {f : α → α} : live (older ++ [.change n f]) = live older :=
  (live_append (show Stays [.change n f] from rfl)).trans (List.append_nil _)

theorem live_enter : live (older ++ [.enter]) = live older :=
  (live_append (show Stays [.enter] from rfl)).trans (List.append_nil _)

/-- When a scope is left, nothing lives of what was made in it. -/
theorem liveFrom_leave (h : depth? d inside = some 0) :
    liveFrom k (inside ++ [.leave]) = [] := by
  induction inside generalizing d k with
  | nil => rfl
  | cons s inside ih =>
      rw [depth?_cons, Option.bind_eq_some_iff] at h
      obtain ⟨e, _, hinside⟩ := h
      cases s with
      | make a =>
          -- The steps since would have to end above the depth of the value that they keep.
          have hleft : ¬ Stays (inside ++ [.leave]) := by
            intro hstays
            obtain ⟨f, hf⟩ := Option.isSome_iff_exists.mp hstays
            rw [depth?_append, Option.bind_eq_some_iff] at hf
            obtain ⟨g, hg, hleave⟩ := hf
            have hsame := (depth?_add hg e).symm.trans hinside
            cases g with
            | zero => cases hleave
            | succ g =>
                have := Option.some.inj hsame
                omega
          rw [List.cons_append, liveFrom, if_neg hleft]
          exact ih hinside
      | change _ _ | enter | leave => exact ih hinside

/-- Behind a scope live the values that lived before it. -/
theorem live_scope (h : Balanced inside) :
    live (before ++ .enter :: inside ++ [.leave]) = live before := by
  rw [List.append_assoc, live_append (balanced_scope h).stays]
  change live before ++ liveFrom (made before) (inside ++ [.leave]) = live before
  rw [liveFrom_leave h, List.append_nil]

/-- At every depth that steps lead through there is the scope that was entered last: it lies
    `e` scopes below the end, and it was entered at the depth `d`. -/
theorem exists_entered_above (h : depth? 0 steps = some (d + e + 1)) :
    ∃ before inside, steps = before ++ .enter :: inside ∧ depth? 0 before = some d ∧
      depth? 0 inside = some e := by
  induction steps using List.reverseRecOn generalizing e with
  | nil => cases h
  | append_singleton steps s ih =>
      rw [depth?_append, Option.bind_eq_some_iff] at h
      obtain ⟨f, hf, hs⟩ := h
      -- What the last step adds to a scope that was open before is seen from that scope too.
      have hmore : ∀ {g}, f = d + g + 1 → s.depth? g = some e →
          ∃ before inside, steps ++ [s] = before ++ .enter :: inside ∧
            depth? 0 before = some d ∧ depth? 0 inside = some e := by
        intro g hg hlast
        obtain ⟨before, inside, rfl, hbefore, hinside⟩ := ih (hg ▸ hf)
        refine ⟨before, inside ++ [s], List.append_assoc .., hbefore, ?_⟩
        rw [depth?_append, hinside]
        change (s.depth? g).bind some = some e
        rw [hlast]
        rfl
      cases s with
      | make _ | change _ _ => exact hmore (Option.some.inj hs) rfl
      | enter =>
          have hheight : f + 1 = d + e + 1 := Option.some.inj hs
          cases e with
          | zero =>
              have hdepth : f = d := by omega
              exact ⟨steps, [], rfl, hdepth ▸ hf, rfl⟩
          | succ e => exact hmore (show f = d + e + 1 by omega) rfl
      | leave =>
          cases f with
          | zero => cases hs
          | succ f =>
              have hdepth : f = d + e + 1 := Option.some.inj hs
              exact hmore (g := e + 1) (congrArg (· + 1) hdepth) rfl

/-- Where a scope can be left, it was entered, and all that were entered since have been left. -/
theorem exists_entered (h : Stays (steps ++ [.leave])) :
    ∃ before inside, steps = before ++ .enter :: inside ∧ Balanced inside := by
  obtain ⟨e, he⟩ := Option.isSome_iff_exists.mp h
  rw [depth?_append, Option.bind_eq_some_iff] at he
  obtain ⟨f, hf, hleave⟩ := he
  cases f with
  | zero => cases hleave
  | succ d =>
      obtain ⟨before, inside, hsteps, _, hinside⟩ := exists_entered_above (e := 0) hf
      exact ⟨before, inside, hsteps, hinside⟩

theorem Orderly.of_append (h : Orderly (older ++ newer)) : Orderly older := by
  rintro before s behind rfl
  exact h before s (behind ++ newer) (by rw [List.append_assoc, List.cons_append])

theorem Orderly.of_seen (h : Orderly steps) (hseen : older <+: steps) : Orderly older := by
  obtain ⟨newer, rfl⟩ := hseen
  exact h.of_append

end

end ValueStack

end MapStyling
