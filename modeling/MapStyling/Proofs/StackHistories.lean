import MapStyling.Engine.ValueStack
import Mathlib.Data.List.Basic
import Mathlib.Data.List.Induction

/-!
# Histories of Value Stacks

What a handle reads after values have been put on a stack, changed and taken away.

A handle is a position, so it reads whatever value is there. Once a cut has taken its value away
it reads nothing. It goes on to read nothing as long as no other value is put in the same
position, and that is when the same handle is handed out once more: from then on the old holder
of the handle and the new one read and change the same value.

The stack may be a part of something larger, of which all that matters is that whatever is done
with it does at most one of these things to the stack, and that it hands out the handle if a
value is put there.

## Main definitions

* `ValueStack.Move`: What can be done with a stack.
* `afterMoves`, `handedOut`: The state that moves lead to, and the handles that they hand out.
* `Acts`, `OnStack`: Moves of something that has a stack in it.
* `ValueStack.LeftUnder`: The value that moves have left under a handle.

## Theorems

* `ValueStack.Move.get?_perform_eq_some_iff`: What a handle reads after a move.
* `OnStack.absent_iff`: A handle that reads nothing goes on to do so until it is handed out.
* `ValueStack.get?_afterMoves_eq_some_iff`: The value that is read then.
-/

namespace MapStyling

namespace ValueStack

variable {α : Type} {s : ValueStack α} {h : Handle} {v : α}

/-- What can be done with a stack. -/
inductive Move (α : Type)
  | push (a : α)
  | change (h : Handle) (f : α → α)
  | cut (height : Nat)

namespace Move

/-- A move, and the handle that it hands out. -/
def perform : Move α → StateM (ValueStack α) (Option Handle)
  | push a => fun s => (some (s.push a).1, (s.push a).2)
  | change h f => fun s => (none, s.modify h f)
  | cut height => fun s => (none, s.cut height)

/-- Whether a move leaves the position of a handle on the stack. -/
def Spares (h : Handle) : Move α → Prop
  | cut height => h.index < height
  | _ => True

/-- What a move makes of the value under a handle. -/
def changed (h : Handle) : Move α → α → α
  | change k f, v => if k = h then f v else v
  | _, v => v

end Move

/-- A handle reads nothing from the top on. -/
theorem get?_eq_none_iff : s.get? h = none ↔ s.height ≤ h.index :=
  Array.getElem?_eq_none_iff

theorem get?_push (a : α) :
    (s.push a).2.get? h = if h.index = s.height then some a else s.get? h :=
  Array.getElem?_push

/-- A handle that a cut reaches reads nothing behind it. -/
theorem get?_cut_of_le {height : Nat} (hle : height ≤ h.index) : (s.cut height).get? h = none := by
  rw [get?_cut, if_neg (Nat.not_lt.mpr hle)]

/-- Nothing comes of a change under a handle that reads nothing. -/
theorem modify_of_get?_eq_none (hnone : s.get? h = none) (f : α → α) : s.modify h f = s := by
  have hsize : s.values.size ≤ h.index := get?_eq_none_iff.mp hnone
  rcases s with ⟨values⟩
  simp only [modify]
  congr 1
  refine Array.ext_getElem? fun i => ?_
  rw [Array.getElem?_modify]
  split
  · next hi =>
    rw [Array.getElem?_eq_none (hi ▸ hsize)]
    rfl
  · rfl

/-- After a move a handle reads a value that was just put there, or what the move has made of the
    value that it read before. -/
theorem Move.get?_perform_eq_some_iff {m : Move α} : (m.perform.run s).2.get? h = some v ↔
    (m = .push v ∧ s.height = h.index) ∨
      m.Spares h ∧ ∃ w, s.get? h = some w ∧ m.changed h w = v := by
  cases m with
  | push a =>
      change (s.push a).2.get? h = some v ↔ _
      rw [get?_push]
      -- A handle in the position of the new value read nothing before.
      by_cases hindex : h.index = s.height
      · have hnone : s.get? h = none := get?_eq_none_iff.mpr (Nat.le_of_eq hindex.symm)
        simp [hindex, hnone]
      · simp [hindex, Ne.symm hindex, Spares, changed]
  | change k f =>
      change (s.modify k f).get? h = some v ↔ _
      by_cases hk : k = h
      · rw [hk, get?_modify_self]
        simp [Spares, changed]
      · rw [get?_modify_of_ne s f hk]
        simp [hk, Spares, changed]
  | cut height =>
      change (s.cut height).get? h = some v ↔ _
      rw [get?_cut]
      by_cases hlt : h.index < height
      · simp [hlt, Spares, changed]
      · simp [hlt, Spares]

/-- A handle that reads nothing reads nothing after a move that does not hand it out. -/
theorem Move.get?_perform_eq_none_iff {m : Move α} (hnone : s.get? h = none) :
    (m.perform.run s).2.get? h = none ↔ (m.perform.run s).1 ≠ some h := by
  rw [Option.eq_none_iff_forall_ne_some]
  constructor
  · intro hall hhanded
    cases m with
    | push a =>
        have hself := get?_push_self s a
        rw [Option.some.inj hhanded] at hself
        exact hall a hself
    | change k f => cases hhanded
    | cut height => cases hhanded
  · intro hne v hv
    rcases get?_perform_eq_some_iff.mp hv with ⟨rfl, hheight⟩ | ⟨_, w, hw, _⟩
    · exact hne (congrArg (fun i => some (Handle.mk i)) hheight)
    · rw [hnone] at hw
      cases hw

end ValueStack

section

variable {μ σ : Type} (perform : μ → StateM σ (Option Handle))

/-- The state that moves lead to. -/
def afterMoves (moves : List μ) (s : σ) : σ :=
  moves.foldl (fun s m => ((perform m).run s).2) s

/-- The handles that moves hand out, one after the other. -/
def handedOut : List μ → σ → List Handle
  | [], _ => []
  | m :: moves, s => ((perform m).run s).1.toList ++ handedOut moves ((perform m).run s).2

/-- An answer and a state that are left by what did one thing at most to a stack and handed out
    what that hands out. -/
def Acts {α : Type} (stack : σ → ValueStack α) (s : σ) (r : Option Handle × σ) : Prop :=
  (r.1 = none ∧ stack r.2 = stack s) ∨
    ∃ move : ValueStack.Move α, move.perform.run (stack s) = (r.1, stack r.2)

/-- Moves of something that has a stack in it. -/
structure OnStack {α : Type} (stack : σ → ValueStack α) : Prop where
  acts : ∀ m s, Acts stack s ((perform m).run s)

end

namespace OnStack

variable {μ σ α : Type} {perform : μ → StateM σ (Option Handle)} {stack : σ → ValueStack α}
  {h : Handle}

theorem get?_perform_eq_none_iff (hstack : OnStack perform stack) {m : μ} {s : σ}
    (hnone : (stack s).get? h = none) :
    (stack ((perform m).run s).2).get? h = none ↔ ((perform m).run s).1 ≠ some h := by
  rcases hstack.acts m s with ⟨hanswer, hsame⟩ | ⟨move, hmove⟩
  · rw [hsame, hanswer]
    exact ⟨fun _ => (Option.some_ne_none h).symm, fun _ => hnone⟩
  · have hstep := ValueStack.Move.get?_perform_eq_none_iff (m := move) hnone
    rwa [hmove] at hstep

/-- A handle reads nothing all along if and only if it reads nothing to begin with and is not
    handed out on the way. -/
theorem absent_iff (hstack : OnStack perform stack) (h : Handle) (moves : List μ) (s : σ) :
    (∀ seen, seen <+: moves → (stack (afterMoves perform seen s)).get? h = none)
      ↔ (stack s).get? h = none ∧ h ∉ handedOut perform moves s := by
  induction moves generalizing s with
  | nil =>
      constructor
      · intro hall
        exact ⟨hall [] List.nil_prefix, List.not_mem_nil⟩
      · rintro ⟨hnone, _⟩ seen hseen
        rw [List.prefix_nil.mp hseen]
        exact hnone
  | cons m moves ih =>
      have hmem : h ∉ handedOut perform (m :: moves) s ↔ ((perform m).run s).1 ≠ some h ∧
          h ∉ handedOut perform moves ((perform m).run s).2 := by
        rw [handedOut, List.mem_append, Option.mem_toList, not_or]
      rw [hmem]
      -- One move keeps the handle dead if it does not hand it out, and then it is the state after
      -- the move that the other moves begin with.
      constructor
      · intro hall
        have hnone : (stack s).get? h = none := hall [] List.nil_prefix
        obtain ⟨hnext, hrest⟩ := (ih _).mp fun seen hseen =>
          hall (m :: seen) (List.cons_prefix_cons.mpr ⟨rfl, hseen⟩)
        exact ⟨hnone, (hstack.get?_perform_eq_none_iff hnone).mp hnext, hrest⟩
      · rintro ⟨hnone, hne, hrest⟩ seen hseen
        cases seen with
        | nil => exact hnone
        | cons m' seen =>
            obtain ⟨rfl, htail⟩ := List.cons_prefix_cons.mp hseen
            exact (ih _).mpr ⟨(hstack.get?_perform_eq_none_iff hnone).mpr hne, hrest⟩ seen htail

end OnStack

namespace ValueStack

variable {α : Type} {s : ValueStack α} {h : Handle} {v : α} {moves : List (Move α)}

theorem onStack_perform : OnStack (@Move.perform α) id where
  acts m _ := Or.inr ⟨m, rfl⟩

theorem afterMoves_concat (m : Move α) (moves : List (Move α)) (s : ValueStack α) :
    afterMoves Move.perform (moves ++ [m]) s
      = (m.perform.run (afterMoves Move.perform moves s)).2 :=
  List.foldl_concat ..

/-- A value stays under its handle as long as the moves spare it, with the changes they make. -/
theorem get?_afterMoves_of_spares (hv : s.get? h = some v) (hspares : ∀ m ∈ moves, m.Spares h) :
    (afterMoves Move.perform moves s).get? h
      = some (moves.foldl (fun v m => m.changed h v) v) := by
  induction moves generalizing s v with
  | nil => exact hv
  | cons m moves ih =>
      have hnext : (m.perform.run s).2.get? h = some (m.changed h v) :=
        Move.get?_perform_eq_some_iff.mpr
          (Or.inr ⟨hspares m List.mem_cons_self, v, hv, rfl⟩)
      exact ih hnext fun m' hm => hspares m' (List.mem_cons_of_mem m hm)

/-- What moves have left under a handle: a value that was put there and has not been taken away
    since, with the changes that were made to it. -/
def LeftUnder (h : Handle) (v : α) (moves : List (Move α)) (s : ValueStack α) : Prop :=
  ∃ older b newer, moves = older ++ .push b :: newer ∧
    (afterMoves Move.perform older s).height = h.index ∧
    (∀ m ∈ newer, m.Spares h) ∧ newer.foldl (fun v m => m.changed h v) b = v

/-- Where a handle read nothing and reads a value in the end, the moves have left it there. -/
theorem leftUnder_of_get?_afterMoves (hnone : s.get? h = none)
    (hv : (afterMoves Move.perform moves s).get? h = some v) : LeftUnder h v moves s := by
  induction moves using List.reverseRecOn generalizing v with
  | nil =>
      rw [show s.get? h = some v from hv] at hnone
      cases hnone
  | append_singleton moves m ih =>
      rw [afterMoves_concat] at hv
      -- The last move has put the value there, or it has spared what the others had left.
      rcases Move.get?_perform_eq_some_iff.mp hv with ⟨rfl, hheight⟩ | ⟨hspares, w, hw, rfl⟩
      · exact ⟨moves, v, [], rfl, hheight, fun _ hm => absurd hm List.not_mem_nil, rfl⟩
      · obtain ⟨older, b, newer, rfl, hheight, hnewer, rfl⟩ := ih hw
        refine ⟨older, b, newer ++ [m], ?_, hheight, fun m' hm => ?_, List.foldl_concat ..⟩
        · rw [List.append_assoc, List.cons_append]
        · rcases List.mem_append.mp hm with hold | hlast
          · exact hnewer m' hold
          · rw [List.mem_singleton.mp hlast]
            exact hspares

/-- What a handle reads that read nothing. -/
theorem get?_afterMoves_eq_some_iff (hnone : s.get? h = none) :
    (afterMoves Move.perform moves s).get? h = some v ↔ LeftUnder h v moves s := by
  constructor
  · exact leftUnder_of_get?_afterMoves hnone
  · rintro ⟨older, b, newer, rfl, hheight, hspares, rfl⟩
    have hpushed : ((afterMoves Move.perform older s).push b).2.get? h = some b := by
      rw [get?_push, if_pos hheight.symm]
    have hrun : afterMoves Move.perform (older ++ .push b :: newer) s
        = afterMoves Move.perform newer ((afterMoves Move.perform older s).push b).2 :=
      List.foldl_append ..
    rw [hrun]
    exact get?_afterMoves_of_spares hpushed hspares

end ValueStack

end MapStyling
