import MapStyling.Proofs.Grammar.Reads
import MapStyling.Proofs.Slices

/-!
# Spans in Inputs

That all places which a run tells of are places in its input.

A run keeps what is left of a text and counts the bytes before it. It tells of places in two
ways: matched rules leave nodes that begin and end somewhere, and a run that fails says how far
it came. These are numbers that went through sums and maxima, and whoever cuts the input at
them relies on their being offsets of characters. Nothing about the text helps with that, it
may be made of characters of any length.

A place is in an input if the bytes before it are those of what the input has in front of the
rest. A run at such a place goes on to such places only, so the maximum of them is one of them,
and a node holds the part of the input between its two.

## Main definitions

* `Text.IsCut`: Offsets at which a text comes apart.
* `Place.Within`: Places in an input.
* `Node.Held`: Nodes with the parts of an input as their texts, down to the last of them.
* `Outcome.Fits`: Outcomes that tell of places in an input only.

## Theorems

* `Pattern.fits_run`: Outcomes of runs do.
* `Pattern.isCut_of_parse`, `Pattern.held_of_parse`: Failures and nodes of a parse.
-/

namespace MapStyling

namespace Text

/-- An offset in bytes at which a text comes apart. -/
def IsCut (s : List Char) (n : Nat) : Prop := ∃ a b, s = a ++ b ∧ byteLength a = n

theorem isCut_zero (s : List Char) : IsCut s 0 := ⟨[], s, rfl, rfl⟩

theorem isCut_byteLength (s : List Char) : IsCut s (byteLength s) :=
  ⟨s, [], (List.append_nil s).symm, rfl⟩

theorem IsCut.max {s : List Char} {i j : Nat} (hi : IsCut s i) (hj : IsCut s j) :
    IsCut s (max i j) := by
  rcases max_choice i j with h | h <;> rw [h] <;> assumption

theorem IsCut.min {s : List Char} {i j : Nat} (hi : IsCut s i) (hj : IsCut s j) :
    IsCut s (min i j) := by
  rcases min_choice i j with h | h <;> rw [h] <;> assumption

/-- A slice begins where the text comes apart. -/
theorem isCut_of_slice? {s m : List Char} {i j : Nat} (h : slice? s i j = some m) : IsCut s i := by
  obtain ⟨a, b, hs, hi, _⟩ := slice?_eq_some_iff.mp h
  exact ⟨a, m ++ b, hs, hi⟩

end Text

namespace Grammar

variable {ρ : Type} {input : List Char}

/-- Places in an input: the bytes before are those in front of the rest. -/
def Place.Within (input : List Char) (c : Place) : Prop :=
  ∃ before, input = before ++ c.rest ∧ c.offset = Text.byteLength before

namespace Place

theorem within_start (input : List Char) : Within input ⟨input, 0⟩ := ⟨[], rfl, rfl⟩

theorem Within.isCut {c : Place} (h : c.Within input) : Text.IsCut input c.offset := by
  obtain ⟨before, hinput, hoffset⟩ := h
  exact ⟨before, c.rest, hinput, hoffset.symm⟩

theorem Within.past {c next : Place} {w : List Char} (h : c.Within input) (hpast : c.Past w next) :
    next.Within input := by
  obtain ⟨before, hinput, hoffset⟩ := h
  refine ⟨before ++ w, ?_, ?_⟩
  · rw [hinput, hpast.rest, List.append_assoc]
  · rw [hpast.offset, hoffset, Text.byteLength_append]

/-- What stands between two places is a slice of the input. -/
theorem Within.slice? {c next : Place} {w : List Char} (h : c.Within input)
    (hpast : c.Past w next) : Text.slice? input c.offset next.offset = some w := by
  obtain ⟨before, hinput, hoffset⟩ := h
  refine Text.slice?_eq_some_iff.mpr ⟨before, next.rest, ?_, hoffset.symm, ?_⟩
  · rw [hinput, hpast.rest]
  · rw [hpast.offset, hoffset, Text.byteLength_append]

theorem past_take (c : Place) (n : Nat) : c.Past (c.rest.take n) (c.advance n) :=
  ⟨List.take_append_drop n c.rest |>.symm, rfl⟩

end Place

/-- Nodes that have the part of an input between their places as their texts, and so have all
    nodes in them. -/
inductive Node.Held (input : List Char) : Node ρ → Prop
  | intro {n : Node ρ} (slice : Text.slice? input n.start n.stop = some n.text)
      (children : ∀ k ∈ n.children, Held input k) : Held input n

theorem Node.Held.slice? {n : Node ρ} (h : n.Held input) :
    Text.slice? input n.start n.stop = some n.text := by
  cases h with
  | intro hslice _ => exact hslice

theorem Node.Held.child {n k : Node ρ} (h : n.Held input) (hk : k ∈ n.children) : k.Held input := by
  cases h with
  | intro _ hchildren => exact hchildren k hk

/-- Outcomes at a place that tell of places in an input only. -/
structure Outcome.Fits (input : List Char) (c : Place) (o : Outcome ρ) : Prop where
  furthest : Text.IsCut input o.furthest
  past : ∀ {nodes next}, o.found = some (nodes, next) → ∃ w, c.Past w next
  held : ∀ {nodes next}, o.found = some (nodes, next) → ∀ n ∈ nodes, n.Held input

namespace Outcome

variable {c next : Place} {f : Nat} {nodes : List (Node ρ)}

theorem fits_none (hf : Text.IsCut input f) : (⟨f, none⟩ : Outcome ρ).Fits input c where
  furthest := hf
  past h := by cases h
  held h := by cases h

theorem fits_some {w : List Char} (hf : Text.IsCut input f) (hpast : c.Past w next)
    (hheld : ∀ n ∈ nodes, n.Held input) : (⟨f, some (nodes, next)⟩ : Outcome ρ).Fits input c where
  furthest := hf
  past h := by
    cases h
    exact ⟨w, hpast⟩
  held h := by
    cases h
    exact hheld

/-- Characters and words leave no nodes, and no rule fails in them. -/
theorem fits_ite (p : Prop) [Decidable p] {w : List Char} (hpast : c.Past w next) :
    (⟨0, if p then some ([], next) else none⟩ : Outcome ρ).Fits input c := by
  split
  · exact fits_some (Text.isCut_zero input) hpast fun _ hn => absurd hn List.not_mem_nil
  · exact fits_none (Text.isCut_zero input)

/-- What is found behind something else, with the nodes of both. -/
theorem Fits.behind {o : Outcome ρ} {w : List Char} (h : o.Fits input next)
    (hf : Text.IsCut input f) (hpast : c.Past w next) (hheld : ∀ n ∈ nodes, n.Held input) :
    (⟨max f o.furthest, o.found.map fun (more, last) => (nodes ++ more, last)⟩ : Outcome ρ).Fits
      input c := by
  rcases hfound : o.found with _ | ⟨more, last⟩
  · exact fits_none (hf.max h.furthest)
  · obtain ⟨v, hv⟩ := h.past hfound
    have hread := Place.past_append_iff.mpr ⟨next, hpast, hv⟩
    refine fits_some (hf.max h.furthest) hread fun n hn => ?_
    exact (List.mem_append.mp hn).elim (hheld n) (h.held hfound n)

end Outcome

namespace Pattern

open Outcome

/-- A round of a repetition goes from where the last one ended over a gap to where the next one
    ends. -/
theorem fits_loop {step : Place → Outcome ρ} (hstep : ∀ c, c.Within input → (step c).Fits input c)
    (m : Mode) (fuel : Nat) {behind here : Place} {x : List Char} (hgap : behind.Past x here)
    (hwithin : behind.Within input) : (loop step m fuel behind here).Fits input behind := by
  induction fuel generalizing behind here x with
  | zero =>
      exact fits_some (Text.isCut_zero input) behind.past_nil fun _ hn => absurd hn List.not_mem_nil
  | succ fuel ih =>
      have hround := hstep here (hwithin.past hgap)
      rw [loop]
      rcases hfound : step here with ⟨f, _ | ⟨nodes, next⟩⟩
      · rw [hfound] at hround
        exact fits_some hround.furthest behind.past_nil fun _ hn => absurd hn List.not_mem_nil
      · rw [hfound] at hround
        obtain ⟨w, hw⟩ := hround.past rfl
        obtain ⟨y, _, hskip⟩ := next.past_skip m
        -- The next round begins behind a gap as well, so the induction goes on from the last place.
        have hread := Place.past_append_iff.mpr ⟨here, hgap, hw⟩
        exact (ih hskip (hwithin.past hread)).behind hround.furthest hread (hround.held rfl)

/-- **Runs stay inside**: from a place in an input they come to places in it, what they leave
    holds parts of it, and the furthest failure is a place in it. -/
theorem fits_run (p : Pattern ρ) (m : Mode) {c : Place} (h : c.Within input) :
    (p.run m c).Fits input c := by
  induction p generalizing m c with
  | oneOrMore q =>
      rw [run, ← ite_not]
      exact fits_ite _ (c.past_take _)
  | zeroOrMore q =>
      exact fits_some (Text.isCut_zero input) (c.past_skipWhile q).1
        fun _ hn => absurd hn List.not_mem_nil
  | word t => exact fits_ite _ (c.past_take t.length)
  | anyCase t => exact fits_ite _ (c.past_take t.length)
  | start => exact fits_ite _ c.past_nil
  | finish => exact fits_ite _ c.past_nil
  | sequence a b iha ihb =>
      have hfirst := iha m h
      rw [run]
      rcases hfound : a.run m c with ⟨f, _ | ⟨nodes, next⟩⟩
      · rw [hfound] at hfirst
        exact fits_none hfirst.furthest
      · rw [hfound] at hfirst
        obtain ⟨w, hw⟩ := hfirst.past rfl
        -- The gap in front of the second part belongs to what is read.
        obtain ⟨x, _, hskip⟩ := next.past_skip m
        have hread := Place.past_append_iff.mpr ⟨next, hw, hskip⟩
        exact (ihb m (h.past hread)).behind hfirst.furthest hread (hfirst.held rfl)
  | choice a b iha ihb =>
      have hfirst := iha m h
      have hsecond := ihb m h
      rw [run]
      rcases hfound : a.run m c with ⟨f, _ | found⟩
      · -- The second part was tried at the same place, and both failures count.
        rw [hfound] at hfirst
        exact ⟨hfirst.furthest.max hsecond.furthest, hsecond.past, hsecond.held⟩
      · rwa [hfound] at hfirst
  | optional a iha =>
      have hfirst := iha m h
      rw [run]
      rcases hfound : a.run m c with ⟨f, _ | found⟩
      · rw [hfound] at hfirst
        exact fits_some hfirst.furthest c.past_nil fun _ hn => absurd hn List.not_mem_nil
      · rwa [hfound] at hfirst
  | repeated a iha => exact fits_loop (fun d hd => iha m hd) m _ c.past_nil h
  | rule name mode body ih =>
      have hbody := ih (if mode = .spaced then m else mode) h
      rw [run]
      rcases hfound : body.run (if mode = .spaced then m else mode) c
        with ⟨f, _ | ⟨nodes, next⟩⟩
      · -- A rule that fails is at the place where it was tried, if it is not in a token.
        rw [hfound] at hbody
        refine fits_none ?_
        split
        · exact hbody.furthest
        · exact hbody.furthest.max h.isCut
      · rw [hfound] at hbody
        obtain ⟨w, hw⟩ := hbody.past rfl
        refine fits_some hbody.furthest hw fun n hn => ?_
        split at hn
        · exact absurd hn List.not_mem_nil
        · rw [List.mem_singleton.mp hn]
          refine .intro ?_ fun k hk => ?_
          · -- The text of the node is what was read between its places.
            rw [take_of_past hw]
            exact h.slice? hw
          · change k ∈ if innerMode m mode = .token then [] else nodes at hk
            split at hk
            · exact absurd hk List.not_mem_nil
            · exact hbody.held rfl k hk

theorem isCut_of_parse {p : Pattern ρ} {n : Nat} (h : p.parse input = .error n) :
    Text.IsCut input n := by
  have hrun := p.fits_run .spaced (Place.within_start input)
  rw [parse] at h
  rcases hfound : p.run .spaced ⟨input, 0⟩ with ⟨f, _ | ⟨nodes, last⟩⟩
  · rw [hfound] at h hrun
    cases h
    exact hrun.furthest
  · rw [hfound] at h
    cases h

theorem held_of_parse {p : Pattern ρ} {nodes : List (Node ρ)} (h : p.parse input = .ok nodes) :
    ∀ n ∈ nodes, n.Held input := by
  have hrun := p.fits_run .spaced (Place.within_start input)
  rw [parse] at h
  rcases hfound : p.run .spaced ⟨input, 0⟩ with ⟨f, _ | ⟨nodes', last⟩⟩
  · rw [hfound] at h
    cases h
  · rw [hfound] at h hrun
    cases h
    exact hrun.held rfl

end Pattern

end Grammar

end MapStyling
