import MapStyling.Proofs.Grammar.Numbers
import MapStyling.Proofs.Trimmed

/-!
# Texts of Flags

The texts that are read as truth values of parameters.

A flag is one of two words, and blanks around it are trimmed before the rule for flags is
asked. The rule itself would let spaces and tabs stand there, but of a trimmed text it takes
nothing but the word: no other blank, no other case and nothing behind.

## Main definitions

* `Grammar.Worded`: One of some words as a token.

## Theorems

* `Grammar.reads_words`: A rule for words reads its words.
* `readFlag_eq_ok_iff`: What is read as a flag, and as which one.
-/

namespace MapStyling

namespace Grammar

variable {β : Type}

/-- One of some words as a token, with a value. -/
def Worded (words : List String) (v : β) (ts : List (List Char)) (vs : List β) : Prop :=
  ∃ w, ts = [w] ∧ w ∈ wordsOf words ∧ vs = [v]

theorem begins_worded {q : Char → Bool} {words : List String}
    (h : ∀ w ∈ wordsOf words, ∃ c u, w = c :: u ∧ q c = false) (v : β) :
    Begins q (Worded words v) := by
  rintro _ _ ⟨w, rfl, hw, rfl⟩
  obtain ⟨c, u, rfl, hc⟩ := h w hw
  exact ⟨c, u, [], rfl, hc⟩

/-- A rule for words reads its words, in front of texts with which none of them goes on like
    one that is tried before it. -/
theorem reads_words {name : RuleName} {w : String} {ws : List String}
    {view : Node RuleName → List β}
    {v : β} {F : List Char → Prop} (hview : ∀ i j t, view ⟨name, i, j, t, []⟩ = [v])
    (hwords : Begins isSpacing (Worded (w :: ws) v))
    (hF : ∀ x r, Gap .spaced x → F r → Apart (w :: ws) (x ++ r)) :
    (Pattern.rule name .token (Rules.oneOf w ws)).Reads .spaced view
      (Laid (Worded (w :: ws) v)) F := by
  have hrule : (Pattern.rule name .token (Rules.oneOf w ws)).Reads .spaced view
      (fun t vs => t ∈ wordsOf (w :: ws) ∧ vs = [v]) (Apart (w :: ws)) :=
    (reads_oneOf w ws).rule (g := fun _ => [v]) (by decide) hview
  refine hrule.laid (fun t vs ht => ?_) hF
  obtain ⟨c, u, us, hcons, hc⟩ := hwords ⟨t, rfl, ht⟩
  exact ⟨c, u, (List.cons.inj hcons).1, hc⟩

/-- The truth value that a node says, and nothing for the end of the text. -/
def flagOf (n : Node RuleName) : Option Bool :=
  match n.name with
  | .flagTrue => some true
  | .flagFalse => some false
  | _ => none

theorem mem_wordsOf_singleton {s : String} {w : List Char} : w ∈ wordsOf [s] ↔ w = s.toList :=
  List.mem_singleton

/-- The tokens of a flag: one of two words. -/
def Flagged (ts : List (List Char)) (vs : List (Option Bool)) : Prop :=
  Worded ["true"] (some true) ts vs ∨ Worded ["false"] (some false) ts vs

theorem flagged_iff {ts : List (List Char)} {vs : List (Option Bool)} :
    Flagged ts vs ↔ ∃ b, ts = [(StyleValue.flagText b).toList] ∧ vs = [some b] := by
  constructor
  · rintro (⟨w, rfl, hw, rfl⟩ | ⟨w, rfl, hw, rfl⟩)
    · exact ⟨true, by rw [mem_wordsOf_singleton.mp hw]; rfl, rfl⟩
    · exact ⟨false, by rw [mem_wordsOf_singleton.mp hw]; rfl, rfl⟩
  · rintro ⟨b, rfl, rfl⟩
    cases b with
    | true => exact Or.inl ⟨_, rfl, mem_wordsOf_singleton.mpr rfl, rfl⟩
    | false => exact Or.inr ⟨_, rfl, mem_wordsOf_singleton.mpr rfl, rfl⟩

theorem begins_word {q : Char → Bool} {s : String} {c : Char} {u : List Char}
    (hs : s.toList = c :: u) (hq : q c = false) (v : β) : Begins q (Worded [s] v) :=
  begins_worded (fun _ hw => ⟨c, u, (mem_wordsOf_singleton.mp hw).trans hs, hq⟩) v

theorem begins_flagged : Begins isSpacing Flagged :=
  (begins_word rfl rfl (some true)).or (begins_word rfl rfl (some false))

/-- Of the two words the second one does not begin like the first. -/
theorem reads_flag : (Pattern.choice Rules.flagTrue Rules.flagFalse).Reads .spaced
    (fun n => [flagOf n]) (Laid Flagged) fun _ => True ∧ True := by
  have htrue : Rules.flagTrue.Reads .spaced (fun n => [flagOf n])
      (Laid (Worded ["true"] (some true))) fun _ => True :=
    reads_words (fun _ _ _ => rfl) (begins_word rfl rfl _) fun _ _ _ _ =>
      List.pairwise_singleton _ _
  have hfalse : Rules.flagFalse.Reads .spaced (fun n => [flagOf n])
      (Laid (Worded ["false"] (some false))) fun _ => True :=
    reads_words (fun _ _ _ => rfl) (begins_word rfl rfl _) fun _ _ _ _ =>
      List.pairwise_singleton _ _
  refine htrue.laid_choice hfalse fun w vs r hw _ => ?_
  have hstop : Stops (fun c => c = 't') (w ++ r) := hw.stops_append (begins_word rfl rfl _)
  exact (Pattern.fails_word_of_stops hstop rfl).rule

theorem flagOf_endOfInput (i j : Nat) (w : List Char) :
    [flagOf ⟨.endOfInput, i, j, w, []⟩] = [none] := rfl

end Grammar

open Grammar

/-- The node of a flag has the one of its word in it, and then the end of the text. -/
theorem any_flagTrue {node : Node RuleName} {b : Bool}
    (h : node.children.flatMap (fun n => [flagOf n]) = [some b] ++ [none]) :
    (node.children.head?.any fun c => c.name = .flagTrue) = b := by
  rw [← List.map_eq_flatMap] at h
  obtain ⟨c, more, hchildren, hfirst, _⟩ := List.map_eq_cons_iff.mp h
  rw [hchildren, List.head?_cons, Option.any_some]
  rw [flagOf] at hfirst
  split at hfirst
  · next hname =>
    cases hfirst
    exact decide_eq_true hname
  · next hname =>
    cases hfirst
    rw [hname]
    rfl
  · cases hfirst

theorem spaced_flagText (b : Bool) :
    Spaced [(StyleValue.flagText b).toList] (StyleValue.flagText b).toList := by
  cases b with
  | true => exact Spaced.token (c := 't') "rue".toList rfl
  | false => exact Spaced.token (c := 'f') "alse".toList rfl

/-- A flag is one of the two words, whatever blanks are around it. -/
theorem readFlag_eq_ok_iff {input : List Char} {b : Bool} :
    readFlag input = .ok b ↔ Text.trim input = (StyleValue.flagText b).toList := by
  constructor
  · intro h
    rw [readFlag] at h
    rcases hflag : RuleName.flag.node "true or false" (Text.trim input) with e | node
    · rw [hflag] at h
      cases h
    · rw [hflag] at h
      cases h
      obtain ⟨ts, vs, hts, hs, hvs⟩ := reads_flag.node_sound .flag begins_flagged ⟨trivial, trivial⟩
        flagOf_endOfInput rfl hflag
      -- The whole text was read, so its one token is all that there is but for blanks.
      obtain ⟨b, rfl, rfl⟩ := flagged_iff.mp hts
      rw [any_flagTrue hvs]
      exact eq_of_spaced (Text.trimmed_trim input) hs
  · intro h
    have hs : Spaced [(StyleValue.flagText b).toList] (Text.trim input) := by
      rw [h]
      exact spaced_flagText b
    obtain ⟨node, hflag, hvs⟩ := reads_flag.node_complete .flag begins_flagged ⟨trivial, trivial⟩
      flagOf_endOfInput rfl (flagged_iff.mpr ⟨b, rfl, rfl⟩) hs
    rw [readFlag, hflag]
    exact congrArg Except.ok (any_flagTrue hvs)

end MapStyling
