import Mathlib.Computability.Language
import MapStyling.Proofs.Grammar.Places

/-!
# What Patterns Read

Patterns with ordered choice, against languages in which order says nothing.

A run commits itself: a choice keeps its first branch that matches, and a repetition takes
all it can get. A language is a set of texts and knows of no order. `Pattern.Reads` says
that nothing comes of the difference. Whatever a run reads belongs to the language, and a
text of the language is read wherever something stands behind it that does not go on like
it. What may stand behind is a part of the statement, so every rule says of its follower
what it needs and no more.

What is read comes with values. A view says which values a node stands for, so that the
values of a sequence are those of its parts one after the other, and places are left out.

Where blanks are passed over, reading is complete up to blanks: a part does not take the
blanks behind it, but it does not mind them either, since whoever comes next passes over
them first. So the blanks between two parts count as the end of the first one.

## Main definitions

* `Follows`, `Repeats`: Relations for one thing behind another and for many of them.
* `Pattern.Fails`: Texts in front of which a pattern does not match.
* `Pattern.Reads`: A pattern that reads the texts of a relation, with their values.
* `Absorbs`: Relations to which blanks at the end make no difference.
* `textsOf`, `someOf`, `spellingsOf`: Languages of classes and of words.
* `Pattern.ReadsToken`: A pattern that reads the texts of a language inside of a token.

## Theorems

* `Pattern.Reads.sequence`, `Pattern.Reads.choice`, `Pattern.Reads.optional`,
  `Pattern.Reads.repeated`: Patterns read what their parts do.
* `Pattern.Reads.rule`, `Pattern.ReadsToken.rule`: Rules read what their bodies do.
-/

namespace MapStyling

namespace Grammar

variable {ρ β : Type}

/-- One thing behind another, with the values of both. -/
def Follows {α : Type} (A B : List α → List β → Prop) (w : List α) (vs : List β) : Prop :=
  ∃ u v us vs', A u us ∧ B v vs' ∧ w = u ++ v ∧ vs = us ++ vs'

/-- Any number of things one behind the other, with the values of all. -/
inductive Repeats {α : Type} (A : List α → List β → Prop) : List α → List β → Prop
  | nil : Repeats A [] []
  | cons {u v : List α} {us vs : List β} (head : A u us) (tail : Repeats A v vs) :
      Repeats A (u ++ v) (us ++ vs)

/-- Relations to which a gap at the end of a text makes no difference. -/
def Absorbs (m : Mode) (S : List Char → List β → Prop) : Prop :=
  ∀ ⦃u x : List Char⦄ ⦃us : List β⦄, S u us → Gap m x → S (u ++ x) us

theorem absorbs_of_ne {m : Mode} (h : m ≠ .spaced) (S : List Char → List β → Prop) :
    Absorbs m S := by
  intro u x us hs hx
  rwa [hx.eq_nil h, List.append_nil]

/-- Texts of characters of a class. -/
def textsOf (q : Char → Bool) : Language Char := {w | ∀ x ∈ w, q x = true}

/-- Texts of characters of a class, at least one. -/
def someOf (q : Char → Bool) : Language Char := {w | w ≠ [] ∧ ∀ x ∈ w, q x = true}

/-- The spellings of a word of small letters, in either case. -/
def spellingsOf (t : List Char) : Language Char := {w | w.map Char.toLower = t}

/-- A word and a text of a language behind it. -/
theorem mem_singleton_mul {t w : List Char} {L : Language Char} :
    w ∈ ({t} : Language Char) * L ↔ ∃ v ∈ L, w = t ++ v := by
  rw [Language.mem_mul]
  constructor
  · rintro ⟨u, hu, v, hv, rfl⟩
    exact ⟨v, hv, by rw [Set.mem_singleton_iff.mp hu]⟩
  · rintro ⟨v, hv, rfl⟩
    exact ⟨t, rfl, v, hv, rfl⟩

theorem mem_spellingsOf {t w : List Char} : w ∈ spellingsOf t ↔ w.map Char.toLower = t := Iff.rfl

namespace Pattern

/-- Texts in front of which a pattern does not match. -/
def Fails (p : Pattern ρ) (m : Mode) (r : List Char) : Prop :=
  ∀ offset, (p.run m ⟨r, offset⟩).found = none

/-- A pattern that reads texts of a relation with their values, all of them in front of
    texts that may follow. -/
structure Reads (p : Pattern ρ) (m : Mode) (view : Node ρ → List β)
    (S : List Char → List β → Prop) (F : List Char → Prop) : Prop where
  sound : ∀ {c next : Place} {nodes : List (Node ρ)}, (p.run m c).found = some (nodes, next) →
    ∃ w, c.Past w next ∧ S w (nodes.flatMap view)
  complete : ∀ {c next : Place} {w : List Char} {vs : List β}, c.Past w next → S w vs →
    F next.rest → ∃ nodes stop, (p.run m c).found = some (nodes, stop) ∧
      stop.skip m = next.skip m ∧ nodes.flatMap view = vs

variable {m : Mode} {view : Node ρ → List β} {p a b : Pattern ρ}
variable {S Sa Sb : List Char → List β → Prop} {F Fa Fb : List Char → Prop}

/-- A word in either case stands in front if the text begins with its letters. -/
theorem afterAnyCase?_iff {t s : List Char} :
    afterAnyCase? t s = true ↔ ∃ w r, s = w ++ r ∧ w.map Char.toLower = t := by
  -- Word and text are taken apart letter by letter.
  induction t generalizing s with
  | nil => exact ⟨fun _ => ⟨[], s, rfl, rfl⟩, fun _ => by rw [afterAnyCase?]⟩
  | cons p ps ih =>
      cases s with
      | nil =>
          rw [afterAnyCase?]
          refine ⟨fun h => absurd h Bool.false_ne_true, ?_⟩
          rintro ⟨w, r, hw, hmap⟩
          rw [(List.append_eq_nil_iff.mp hw.symm).1] at hmap
          cases hmap
      | cons c cs =>
          rw [afterAnyCase?, Bool.and_eq_true, ih, decide_eq_true_eq]
          constructor
          · rintro ⟨rfl, w, r, rfl, rfl⟩
            exact ⟨c :: w, r, rfl, rfl⟩
          · rintro ⟨w, r, hw, hmap⟩
            cases w with
            | nil => cases hmap
            | cons d w =>
                obtain ⟨rfl, rfl⟩ : c = d ∧ cs = w ++ r := List.cons.inj hw
                obtain ⟨rfl, rfl⟩ : c.toLower = p ∧ w.map Char.toLower = ps := List.cons.inj hmap
                exact ⟨rfl, w, r, rfl, rfl⟩

theorem Fails.sequence {r : List Char} (h : a.Fails m r) : (sequence a b).Fails m r := by
  intro offset
  rw [found_sequence, h offset]
  rfl

theorem Fails.choice {r : List Char} (ha : a.Fails m r) (hb : b.Fails m r) :
    (choice a b).Fails m r := by
  intro offset
  rw [found_choice, ha offset, hb offset]
  rfl

theorem Fails.rule {name : ρ} {mode : Mode} {r : List Char} (h : a.Fails (innerMode m mode) r) :
    (rule name mode a).Fails m r := by
  intro offset
  rw [found_rule, h offset]
  rfl

theorem fails_word {t r : List Char} (h : t.isPrefixOf r = false) :
    (word t : Pattern ρ).Fails m r := by
  intro offset
  rw [found_word, h]
  rfl

/-- A word does not stand in front of a text that begins with another character than it. -/
theorem isPrefixOf_of_stops {q : Char → Bool} {c : Char} {t r : List Char} (h : Stops q r)
    (hq : q c = true) : (c :: t).isPrefixOf r = false := by
  cases r with
  | nil => rfl
  | cons d r =>
      have hne : (c == d) = false := by
        rw [beq_eq_false_iff_ne]
        rintro rfl
        rw [stops_cons.mp h] at hq
        cases hq
      rw [List.isPrefixOf_cons_cons, hne, Bool.false_and]

theorem fails_word_of_stops {q : Char → Bool} {c : Char} {t r : List Char} (h : Stops q r)
    (hq : q c = true) : (word (c :: t) : Pattern ρ).Fails m r :=
  fails_word (isPrefixOf_of_stops h hq)

theorem fails_anyCase {t r : List Char} (h : ∀ w ∈ spellingsOf t, ¬w <+: r) :
    (anyCase t : Pattern ρ).Fails m r := by
  intro offset
  rw [found_anyCase]
  split
  · next hfirst =>
    obtain ⟨w, s, hr, hw⟩ := afterAnyCase?_iff.mp hfirst
    exact absurd ⟨s, hr.symm⟩ (h w hw)
  · rfl

theorem fails_oneOrMore {q : Char → Bool} {r : List Char} (h : Stops q r) :
    (oneOrMore q : Pattern ρ).Fails m r := by
  intro offset
  have htake : r.takeWhile q = [] :=
    takeWhile_append_of_stops (w := []) (fun _ hc => absurd hc List.not_mem_nil) h
  rw [found_oneOrMore, htake]
  rfl

namespace Reads

theorem congr (h : p.Reads m view S F) {S' : List Char → List β → Prop}
    {F' : List Char → Prop} (hS : ∀ w vs, S w vs ↔ S' w vs) (hF : ∀ r, F' r → F r) :
    p.Reads m view S' F' where
  sound hfound := by
    obtain ⟨w, hw, hs⟩ := h.sound hfound
    exact ⟨w, hw, (hS w _).mp hs⟩
  complete hpast hs hf := h.complete hpast ((hS _ _).mpr hs) (hF _ hf)

/-- One pattern behind another. The second one is what follows the first, and it begins
    where the gap between them ends. -/
theorem sequence (ha : a.Reads m view Sa Fa) (hb : b.Reads m view Sb Fb)
    (hgap : Absorbs m Sa) (hfollow : ∀ v vs r, Sb v vs → Fb r → Fa (v ++ r))
    (hbegin : m = .spaced → ∀ v vs r, Sb v vs → Fb r → Stops isSpacing (v ++ r)) :
    (Pattern.sequence a b).Reads m view (Follows Sa Sb) Fb where
  sound := by
    intro c next nodes hfound
    rw [found_sequence, Option.bind_eq_some_iff] at hfound
    obtain ⟨⟨first, between⟩, hfirst, hsecond⟩ := hfound
    obtain ⟨⟨more, last⟩, hmore, heq⟩ := Option.map_eq_some_iff.mp hsecond
    cases heq
    obtain ⟨u, hu, hsu⟩ := ha.sound hfirst
    obtain ⟨x, hx, hskip⟩ := between.past_skip m
    obtain ⟨v, hv, hsv⟩ := hb.sound hmore
    refine ⟨(u ++ x) ++ v, ?_, u ++ x, v, _, _, hgap hsu hx, hsv, rfl, List.flatMap_append⟩
    exact Place.past_append_iff.mpr ⟨_, Place.past_append_iff.mpr ⟨between, hu, hskip⟩, hv⟩
  complete := by
    rintro c next w vs hpast ⟨u, v, us, vs', hsu, hsv, rfl, rfl⟩ hf
    obtain ⟨between, hu, hv⟩ := Place.past_append_iff.mp hpast
    have hfa : Fa between.rest := by
      rw [hv.rest]
      exact hfollow v vs' next.rest hsv hf
    obtain ⟨first, stop, hfirst, hstop, rfl⟩ := ha.complete hu hsu hfa
    -- The run may have stopped among the blanks before, but it goes on behind them.
    have hskip : stop.skip m = between := by
      rw [hstop]
      refine between.past_nil.skip_eq (gap_nil m) fun hm => ?_
      rw [hv.rest]
      exact hbegin hm v vs' next.rest hsv hf
    obtain ⟨more, last, hmore, hlast, rfl⟩ := hb.complete hv hsv hf
    refine ⟨first ++ more, last, ?_, hlast, List.flatMap_append⟩
    rw [found_sequence, hfirst]
    change (b.run m (stop.skip m)).found.map _ = _
    rw [hskip, hmore]
    rfl

/-- The first pattern that matches, where no text of the second one looks like the first. -/
theorem choice (ha : a.Reads m view Sa Fa) (hb : b.Reads m view Sb Fb)
    (hfails : ∀ w vs r, Sb w vs → Fb r → a.Fails m (w ++ r)) :
    (Pattern.choice a b).Reads m view (fun w vs => Sa w vs ∨ Sb w vs)
      (fun r => Fa r ∧ Fb r) where
  sound := by
    intro c next nodes hfound
    rw [found_choice, Option.or_eq_some_iff] at hfound
    rcases hfound with hfound | ⟨_, hfound⟩
    · obtain ⟨w, hw, hs⟩ := ha.sound hfound
      exact ⟨w, hw, Or.inl hs⟩
    · obtain ⟨w, hw, hs⟩ := hb.sound hfound
      exact ⟨w, hw, Or.inr hs⟩
  complete := by
    rintro c next w vs hpast (hs | hs) ⟨hfa, hfb⟩
    · obtain ⟨nodes, stop, hfound, hstop, hvs⟩ := ha.complete hpast hs hfa
      refine ⟨nodes, stop, ?_, hstop, hvs⟩
      rw [found_choice, hfound]
      rfl
    · obtain ⟨nodes, stop, hfound, hstop, hvs⟩ := hb.complete hpast hs hfb
      refine ⟨nodes, stop, ?_, hstop, hvs⟩
      -- The second pattern is not tried before the first one has failed.
      have hnone : (a.run m c).found = none := by
        have hfail := hfails w vs next.rest hs hfb c.offset
        rwa [← hpast.rest] at hfail
      rw [found_choice, hnone, hfound]
      rfl

/-- A pattern or nothing, where what follows nothing does not look like the pattern. -/
theorem optional (ha : a.Reads m view Sa Fa) :
    (Pattern.optional a).Reads m view (fun w vs => Sa w vs ∨ w = [] ∧ vs = [])
      (fun r => Fa r ∧ a.Fails m r) where
  sound := by
    intro c next nodes hfound
    rw [found_optional] at hfound
    rcases ha' : (a.run m c).found with _ | ⟨nodes', next'⟩
    · rw [ha'] at hfound
      cases hfound
      exact ⟨[], c.past_nil, Or.inr ⟨rfl, rfl⟩⟩
    · rw [ha'] at hfound
      cases hfound
      obtain ⟨w, hw, hs⟩ := ha.sound ha'
      exact ⟨w, hw, Or.inl hs⟩
  complete := by
    rintro c next w vs hpast (hs | ⟨rfl, rfl⟩) ⟨hfa, hfails⟩
    · obtain ⟨nodes, stop, hfound, hstop, hvs⟩ := ha.complete hpast hs hfa
      refine ⟨nodes, stop, ?_, hstop, hvs⟩
      rw [found_optional, hfound]
      rfl
    · -- Nothing is read, so the place behind it is the one in front.
      have heq : next = c := c.past_nil.eq hpast
      subst heq
      refine ⟨[], next, ?_, rfl, rfl⟩
      rw [found_optional, hfails next.offset]
      rfl

/-- What the rounds of a repetition find: nothing, at the place before them, or parts from
    where the first of them began. -/
theorem loop_sound (ha : a.Reads m view Sa Fa) (hgap : Absorbs m Sa) {fuel : Nat}
    {behind here last : Place} {nodes : List (Node ρ)}
    (h : (loop (a.run m) m fuel behind here).found = some (nodes, last)) :
    nodes = [] ∧ last = behind ∨ ∃ w, here.Past w last ∧ Repeats Sa w (nodes.flatMap view) := by
  induction fuel generalizing behind here last nodes with
  | zero =>
      cases h
      exact Or.inl ⟨rfl, rfl⟩
  | succ fuel ih =>
      rw [loop] at h
      rcases hstep : a.run m here with ⟨f, _ | ⟨first, between⟩⟩
      · rw [hstep] at h
        cases h
        exact Or.inl ⟨rfl, rfl⟩
      · rw [hstep] at h
        obtain ⟨⟨more, stop⟩, hmore, heq⟩ := Option.map_eq_some_iff.mp h
        obtain ⟨rfl, rfl⟩ : first ++ more = nodes ∧ stop = last := Prod.mk.inj heq
        obtain ⟨u, hu, hs⟩ := ha.sound (congrArg Outcome.found hstep)
        refine Or.inr ?_
        rw [List.flatMap_append]
        -- A round that finds nothing leaves the place behind the last part, blanks not passed.
        rcases ih hmore with ⟨rfl, rfl⟩ | ⟨v, hv, hvs⟩
        · exact ⟨u ++ [], by rwa [List.append_nil], .cons hs .nil⟩
        · obtain ⟨x, hx, hskip⟩ := between.past_skip m
          refine ⟨(u ++ x) ++ v, ?_, .cons (hgap hs hx) hvs⟩
          exact Place.past_append_iff.mpr ⟨_, Place.past_append_iff.mpr ⟨between, hu, hskip⟩, hv⟩

/-- Rounds find all parts that are there, up to a place at which they have to end. A part is
    not empty, so as many rounds as there are characters are enough. -/
theorem loop_complete (ha : a.Reads m view Sa Fa) (hne : ∀ w vs, Sa w vs → w ≠ [])
    (hbegin : m = .spaced → ∀ w vs r, Sa w vs → Stops isSpacing (w ++ r))
    (hfollow : ∀ w vs r, Sa w vs → Fa (w ++ r)) {next : Place} (hend : Fa next.rest)
    (hfails : a.Fails m next.rest) (hstop : m = .spaced → Stops isSpacing next.rest)
    {w : List Char} {vs : List β} (h : Repeats Sa w vs) :
    ∀ (fuel : Nat) {behind here : Place}, w.length ≤ fuel →
      here.Past w next → behind.skip m = here.skip m →
      ∃ nodes stop, (loop (a.run m) m fuel behind here).found = some (nodes, stop) ∧
        stop.skip m = next.skip m ∧ nodes.flatMap view = vs := by
  induction h with
  | nil =>
      intro fuel behind here _ hhere hbehind
      have heq : next = here := here.past_nil.eq hhere
      subst heq
      refine ⟨[], behind, ?_, hbehind, rfl⟩
      cases fuel with
      | zero => rfl
      | succ fuel =>
          rw [loop]
          rcases hstep : a.run m next with ⟨f, _ | found⟩
          · rfl
          · have hnone : (a.run m next).found = none := hfails next.offset
            rw [hstep] at hnone
            cases hnone
  | @cons u v us vs' hu hvs ih =>
      intro fuel behind here hfuel hhere _
      obtain ⟨between, hpastu, hv⟩ := Place.past_append_iff.mp hhere
      -- What follows the part is the end of the repetition or another part.
      have hnext : Fa between.rest ∧ (m = .spaced → Stops isSpacing between.rest) := by
        rw [hv.rest]
        cases hvs with
        | nil => exact ⟨hend, hstop⟩
        | @cons u' v' us' vs'' hu' _ =>
            rw [List.append_assoc]
            exact ⟨hfollow u' us' _ hu', fun hm => hbegin hm u' us' _ hu'⟩
      obtain ⟨first, stop, hfirst, hstop', rfl⟩ := ha.complete hpastu hu hnext.1
      have hskip : stop.skip m = between := by
        rw [hstop']
        exact between.past_nil.skip_eq (gap_nil m) hnext.2
      have hlength : 0 < u.length := List.length_pos_iff.mpr (hne u _ hu)
      have hfuel' : u.length + v.length ≤ fuel := by
        simpa only [List.length_append] using hfuel
      cases fuel with
      | zero => omega
      | succ fuel =>
          obtain ⟨more, last, hmore, hlast, rfl⟩ :=
            ih fuel (by omega) (hskip ▸ hv) (Place.skip_skip m stop).symm
          refine ⟨first ++ more, last, ?_, hlast, List.flatMap_append⟩
          rw [loop]
          rcases hstep : a.run m here with ⟨f, found⟩
          have hfound : found = some (first, stop) := by rw [← hfirst, hstep]
          subst hfound
          change (loop (a.run m) m fuel stop (stop.skip m)).found.map _ = _
          rw [hmore]
          rfl

/-- Parts one after the other, as many as there are. What follows the last one does not look
    like a part, and what follows a part may be another one. -/
theorem repeated (ha : a.Reads m view Sa Fa) (hgap : Absorbs m Sa)
    (hne : ∀ w vs, Sa w vs → w ≠ [])
    (hbegin : m = .spaced → ∀ w vs r, Sa w vs → Stops isSpacing (w ++ r))
    (hfollow : ∀ w vs r, Sa w vs → Fa (w ++ r))
    (hend : ∀ r, F r → Fa r ∧ a.Fails m r ∧ (m = .spaced → Stops isSpacing r)) :
    (Pattern.repeated a).Reads m view (Repeats Sa) F where
  sound := by
    intro c next nodes hfound
    rcases ha.loop_sound hgap hfound with ⟨rfl, rfl⟩ | hread
    · exact ⟨[], next.past_nil, .nil⟩
    · exact hread
  complete := by
    intro c next w vs hpast hs hf
    obtain ⟨hlast, hfails, hstop⟩ := hend next.rest hf
    refine ha.loop_complete hne hbegin hfollow hlast hfails hstop hs _ ?_ hpast rfl
    rw [hpast.rest, List.length_append]
    omega

end Reads

theorem reads_word (t : List Char) :
    (word t : Pattern ρ).Reads m view (fun w vs => w = t ∧ vs = []) fun _ => True where
  sound := by
    intro c next nodes hfound
    rw [found_word] at hfound
    split at hfound
    · next hfirst =>
      cases hfound
      obtain ⟨r, hr⟩ := List.isPrefixOf_iff_prefix.mp hfirst
      exact ⟨t, Place.past_advance hr.symm, rfl, rfl⟩
    · cases hfound
  complete := by
    rintro c next w vs hpast ⟨rfl, rfl⟩ _
    have hfirst : w.isPrefixOf c.rest = true :=
      List.isPrefixOf_iff_prefix.mpr ⟨next.rest, hpast.rest.symm⟩
    refine ⟨[], next, ?_, rfl, rfl⟩
    rw [found_word, if_pos hfirst, ← hpast.eq_advance]

theorem reads_anyCase (t : List Char) : (anyCase t : Pattern ρ).Reads m view
    (fun w vs => w ∈ spellingsOf t ∧ vs = []) fun _ => True where
  sound := by
    intro c next nodes hfound
    rw [found_anyCase] at hfound
    split at hfound
    · next hfirst =>
      cases hfound
      obtain ⟨w, r, hr, rfl⟩ := afterAnyCase?_iff.mp hfirst
      rw [List.length_map]
      exact ⟨w, Place.past_advance hr, rfl, rfl⟩
    · cases hfound
  complete := by
    rintro c next w vs hpast ⟨hw, rfl⟩ _
    rw [← mem_spellingsOf.mp hw]
    have hfirst : afterAnyCase? (w.map Char.toLower) c.rest = true :=
      afterAnyCase?_iff.mpr ⟨w, next.rest, hpast.rest, rfl⟩
    refine ⟨[], next, ?_, rfl, rfl⟩
    rw [found_anyCase, if_pos hfirst, List.length_map, ← hpast.eq_advance]

theorem reads_zeroOrMore (q : Char → Bool) : (zeroOrMore q : Pattern ρ).Reads m view
    (fun w vs => w ∈ textsOf q ∧ vs = []) (Stops q) where
  sound := by
    intro c next nodes hfound
    cases hfound
    exact ⟨_, (c.past_skipWhile q).1, fun x hx => List.all_eq_true.mp List.all_takeWhile x hx, rfl⟩
  complete := by
    rintro c next w vs hpast ⟨hw, rfl⟩ hstop
    exact ⟨[], next, by rw [found_zeroOrMore, hpast.skipWhile_eq hw hstop], rfl, rfl⟩

theorem reads_oneOrMore (q : Char → Bool) : (oneOrMore q : Pattern ρ).Reads m view
    (fun w vs => w ∈ someOf q ∧ vs = []) (Stops q) where
  sound := by
    intro c next nodes hfound
    rw [found_oneOrMore] at hfound
    split at hfound
    · cases hfound
    · next hlength =>
      cases hfound
      refine ⟨_, (c.past_skipWhile q).1, ⟨?_, fun x hx => ?_⟩, rfl⟩
      · exact fun hnil => hlength (List.length_eq_zero_iff.mpr hnil)
      · exact List.all_eq_true.mp List.all_takeWhile x hx
  complete := by
    rintro c next w vs hpast ⟨⟨hne, hw⟩, rfl⟩ hstop
    have hlength : ¬(c.rest.takeWhile q).length = 0 := by
      rw [hpast.rest, takeWhile_append_of_stops hw hstop]
      exact fun h => hne (List.length_eq_zero_iff.mp h)
    refine ⟨[], next, ?_, rfl, rfl⟩
    rw [found_oneOrMore, if_neg hlength, hpast.skipWhile_eq hw hstop]

theorem reads_finish : (finish : Pattern ρ).Reads m view
    (fun w vs => w = [] ∧ vs = []) fun r => r = [] where
  sound := by
    intro c next nodes hfound
    rw [found_finish] at hfound
    split at hfound
    · cases hfound
      exact ⟨[], c.past_nil, rfl, rfl⟩
    · cases hfound
  complete := by
    rintro c next w vs hpast ⟨rfl, rfl⟩ hnil
    have heq : next = c := c.past_nil.eq hpast
    subst heq
    refine ⟨[], next, ?_, rfl, rfl⟩
    rw [found_finish, hnil]
    rfl

/-- A pattern that reads the texts of a language inside of a token. -/
def ReadsToken (p : Pattern ρ) (L : Language Char) (F : List Char → Prop) : Prop :=
  p.Reads .token (fun _ => ([] : List Unit)) (fun w vs => w ∈ L ∧ vs = []) F

namespace ReadsToken

variable {L La Lb : Language Char}

theorem sequence (ha : a.ReadsToken La Fa) (hb : b.ReadsToken Lb Fb)
    (hfollow : ∀ v ∈ Lb, ∀ r, Fb r → Fa (v ++ r)) :
    (Pattern.sequence a b).ReadsToken (La * Lb) Fb := by
  refine (Reads.sequence ha hb (absorbs_of_ne (m := .token) (by decide) _)
    (fun v vs r hv hr => hfollow v hv.1 r hr) fun hm => by cases hm).congr ?_ fun r hr => hr
  intro w vs
  rw [Language.mem_mul]
  constructor
  · rintro ⟨u, v, us, vs', hu, hv, rfl, rfl⟩
    rw [hu.2, hv.2]
    exact ⟨⟨u, hu.1, v, hv.1, rfl⟩, rfl⟩
  · rintro ⟨⟨u, hu, v, hv, rfl⟩, rfl⟩
    exact ⟨u, v, [], [], ⟨hu, rfl⟩, ⟨hv, rfl⟩, rfl, rfl⟩

theorem choice (ha : a.ReadsToken La Fa) (hb : b.ReadsToken Lb Fb)
    (hfails : ∀ w ∈ Lb, ∀ r, Fb r → a.Fails .token (w ++ r)) :
    (Pattern.choice a b).ReadsToken (La + Lb) fun r => Fa r ∧ Fb r := by
  refine (Reads.choice ha hb fun w vs r hw hr => hfails w hw.1 r hr).congr ?_ fun r hr => hr
  intro w vs
  rw [Language.mem_add, or_and_right]

theorem optional (ha : a.ReadsToken La Fa) :
    (Pattern.optional a).ReadsToken (La + 1) fun r => Fa r ∧ a.Fails .token r := by
  refine (Reads.optional ha).congr ?_ fun r hr => hr
  intro w vs
  rw [Language.mem_add, Language.mem_one, or_and_right]

theorem mono (ha : a.ReadsToken La Fa) (h : ∀ r, F r → Fa r) : a.ReadsToken La F :=
  Reads.congr ha (fun _ _ => Iff.rfl) h

end ReadsToken

theorem readsToken_word (t : List Char) :
    (word t : Pattern ρ).ReadsToken {t} fun _ => True := reads_word t

theorem readsToken_anyCase (t : List Char) :
    (anyCase t : Pattern ρ).ReadsToken (spellingsOf t) fun _ => True :=
  reads_anyCase t

theorem readsToken_zeroOrMore (q : Char → Bool) :
    (zeroOrMore q : Pattern ρ).ReadsToken (textsOf q) (Stops q) :=
  reads_zeroOrMore q

theorem readsToken_oneOrMore (q : Char → Bool) :
    (oneOrMore q : Pattern ρ).ReadsToken (someOf q) (Stops q) :=
  reads_oneOrMore q

theorem readsToken_finish : (finish : Pattern ρ).ReadsToken 1 fun r => r = [] := reads_finish

/-- The text of a node is what was read. -/
theorem take_of_past {c next : Place} {w : List Char} (h : c.Past w next) :
    c.rest.take (c.rest.length - next.rest.length) = w := by
  rw [h.rest, List.length_append, Nat.add_sub_cancel, List.take_left]

/-- A token is a node with the text that was read, and nothing in it. -/
theorem ReadsToken.rule {L : Language Char} (h : p.ReadsToken L F) {name : ρ}
    {g : List Char → List β} (hm : m ≠ .token)
    (hview : ∀ i j w, view ⟨name, i, j, w, []⟩ = g w) :
    (Pattern.rule name .token p).Reads m view (fun w vs => w ∈ L ∧ vs = g w) F where
  sound := by
    intro c next nodes hfound
    rw [found_token hm] at hfound
    obtain ⟨⟨inside, stop⟩, hbody, heq⟩ := Option.map_eq_some_iff.mp hfound
    cases heq
    obtain ⟨w, hw, hs⟩ := h.sound hbody
    refine ⟨w, hw, hs.1, ?_⟩
    rw [List.flatMap_singleton, take_of_past hw]
    exact hview _ _ w
  complete := by
    rintro c next w vs hpast ⟨hw, rfl⟩ hf
    obtain ⟨inside, stop, hfound, hstop, _⟩ := h.complete hpast ⟨hw, rfl⟩ hf
    -- Nothing is skipped behind a part of a token.
    have heq : stop = next := by
      rwa [Place.skip_of_ne (by decide), Place.skip_of_ne (by decide)] at hstop
    subst heq
    refine ⟨[⟨name, c.offset, stop.offset, w, []⟩], stop, ?_, rfl, ?_⟩
    · simp only [found_token hm, hfound, Option.map_some, take_of_past hpast]
    · rw [List.flatMap_singleton]
      exact hview _ _ w

/-- Any other rule is a node with what was found in it. -/
theorem Reads.rule {γ : Type} {inside : Node ρ → List γ} {S : List Char → List γ → Prop}
    {mode : Mode} (h : p.Reads (innerMode m mode) inside S F) {name : ρ} {g : List γ → List β}
    (hm : m ≠ .token) (hmode : mode ≠ .token)
    (hview : ∀ i j w nodes, view ⟨name, i, j, w, nodes⟩ = g (nodes.flatMap inside)) :
    (Pattern.rule name mode p).Reads m view (fun w vs => ∃ us, S w us ∧ vs = g us) F where
  sound := by
    intro c next nodes hfound
    rw [found_rule_of_ne hm hmode] at hfound
    obtain ⟨⟨children, stop⟩, hbody, heq⟩ := Option.map_eq_some_iff.mp hfound
    cases heq
    obtain ⟨w, hw, hs⟩ := h.sound hbody
    refine ⟨w, hw, _, hs, ?_⟩
    rw [List.flatMap_singleton]
    exact hview _ _ _ _
  complete := by
    rintro c next w vs hpast ⟨us, hs, rfl⟩ hf
    obtain ⟨children, stop, hfound, hstop, rfl⟩ := h.complete hpast hs hf
    refine ⟨[⟨name, c.offset, stop.offset, c.rest.take (c.rest.length - stop.rest.length),
      children⟩], stop, ?_, ?_, ?_⟩
    · rw [found_rule_of_ne hm hmode, hfound]
      rfl
    · -- A rule whose parts touch stops where it should, and so it does behind blanks.
      by_cases hspaced : mode = .spaced
      · rwa [innerMode, if_pos hspaced] at hstop
      · rw [innerMode, if_neg hspaced, Place.skip_of_ne hspaced,
          Place.skip_of_ne hspaced] at hstop
        rw [hstop]
    · rw [List.flatMap_singleton]
      exact hview _ _ _ _

end Pattern

end Grammar

end MapStyling
