import MapStyling.Proofs.Grammar.Reads
import MapStyling.Style.Reading

/-!
# Texts of Tokens

Tokens with spaces and tabs among them, and rules that have to match a whole text.

A rule for a whole text begins at the start and ends at the end, and blanks may stand at
both. So its texts are tokens in their order with spaces and tabs before, between and
behind them, and this is what `Spaced` says. Taking a text of tokens apart between two of
them leaves the blanks on one side or on the other, which makes no difference to it.

A pattern that lets blanks stand between its parts is therefore described by lists of
tokens, `Laid` out as text, and one pattern behind another has the lists of both in a row.

## Main definitions

* `Spaced`: Tokens in their order, with spaces and tabs around them.
* `Laid`: A relation of tokens as one of texts.
* `Punctuation`: A single character as a token.
* `Valued`: A token with a value.
* `Begins`: Relations of which each list of tokens has a first one.

## Theorems

* `spaced_append_iff`: Tokens one after the other.
* `laid_follows_iff`, `laid_repeats_iff`: Laying out goes by parts.
* `Pattern.Reads.laid`, `Pattern.Reads.laid_sequence`, `Pattern.Reads.laid_repeated`: Patterns
  read tokens if their parts do.
* `Pattern.Reads.node_sound`, `Pattern.Reads.node_complete`: A rule for whole texts reads the
  tokens of its body.
-/

namespace MapStyling

namespace Grammar

/-- Tokens in their order, with spaces and tabs before, between and behind them. No token
    begins with one. -/
inductive Spaced : List (List Char) → List Char → Prop
  | nil {x : List Char} (gap : Gap .spaced x) : Spaced [] x
  | cons {x w s : List Char} {c : Char} {ws : List (List Char)} (gap : Gap .spaced x)
      (first : isSpacing c = false) (rest : Spaced ws s) :
      Spaced ((c :: w) :: ws) (x ++ (c :: w ++ s))

namespace Spaced

variable {ws vs : List (List Char)} {s t x w : List Char}

theorem token {c : Char} (w : List Char) (hc : isSpacing c = false) :
    Spaced [c :: w] (c :: w) := by
  have htoken := Spaced.cons (w := w) (gap_nil .spaced) hc (.nil (gap_nil .spaced))
  rwa [List.append_nil, List.nil_append] at htoken

theorem gap_append (hx : Gap .spaced x) (h : Spaced ws s) : Spaced ws (x ++ s) := by
  cases h with
  | nil hgap => exact .nil (hx.append hgap)
  | cons hgap hfirst rest =>
      rw [← List.append_assoc]
      exact .cons (hx.append hgap) hfirst rest

theorem append (h : Spaced ws s) (h' : Spaced vs t) : Spaced (ws ++ vs) (s ++ t) := by
  induction h with
  | nil hgap => exact gap_append hgap h'
  | cons hgap hfirst rest ih =>
      rw [List.append_assoc, List.append_assoc]
      exact .cons hgap hfirst ih

theorem append_gap (h : Spaced ws s) (hx : Gap .spaced x) : Spaced ws (s ++ x) := by
  have happend := h.append (.nil hx)
  rwa [List.append_nil] at happend

/-- The blanks before the first token, and the rest. -/
theorem exists_gap (h : Spaced ws s) :
    ∃ x v, s = x ++ v ∧ Gap .spaced x ∧ Spaced ws v ∧ Stops isSpacing v := by
  cases h with
  | nil hgap => exact ⟨s, [], (List.append_nil s).symm, hgap, .nil (gap_nil _), stops_nil _⟩
  | @cons x w s c ws hgap hfirst rest =>
      exact ⟨x, c :: w ++ s, rfl, hgap, .cons (gap_nil _) hfirst rest, stops_cons.mpr hfirst⟩

/-- The first token of a text that begins with it. -/
theorem exists_rest (h : Spaced (w :: ws) s) (hs : Stops isSpacing s) :
    ∃ c w' t, w = c :: w' ∧ isSpacing c = false ∧ s = w ++ t ∧ Spaced ws t := by
  cases h with
  | @cons x w' t c _ hgap hfirst rest =>
      rw [eq_nil_of_stops hgap.spacing hs]
      exact ⟨c, w', t, rfl, hfirst, rfl, rest⟩

end Spaced

theorem spaced_append_iff {ws vs : List (List Char)} {s : List Char} :
    Spaced (ws ++ vs) s ↔ ∃ u v, s = u ++ v ∧ Spaced ws u ∧ Spaced vs v := by
  constructor
  · intro h
    induction ws generalizing s with
    | nil => exact ⟨[], s, rfl, .nil (gap_nil _), h⟩
    | cons w ws ih =>
        cases h with
        | @cons x w' _ c _ hgap hfirst hrest =>
            obtain ⟨u, v, rfl, hu, hv⟩ := ih hrest
            exact ⟨x ++ (c :: w' ++ u), v, by simp only [List.append_assoc],
              .cons hgap hfirst hu, hv⟩
  · rintro ⟨u, v, rfl, hu, hv⟩
    exact hu.append hv

/-- Tokens one after the other, with the blanks between them behind the first ones. -/
theorem Spaced.exists_append {ws vs : List (List Char)} {s : List Char} (h : Spaced (ws ++ vs) s)
    (hs : Stops isSpacing s) : ∃ u v, s = u ++ v ∧ (Spaced ws u ∧ Stops isSpacing u) ∧
      Spaced vs v ∧ Stops isSpacing v := by
  obtain ⟨u, v, rfl, hu, hv⟩ := spaced_append_iff.mp h
  obtain ⟨x, v, rfl, hx, hv, hstop⟩ := hv.exists_gap
  -- The blanks in front of the later tokens go to the earlier ones.
  refine ⟨u ++ x, v, (List.append_assoc u x v).symm, ⟨hu.append_gap hx, fun c hc => ?_⟩, hv, hstop⟩
  have hhead : ((u ++ x) ++ v).head? = some c := by
    rw [List.head?_append, Option.mem_def.mp hc]
    rfl
  rw [List.append_assoc] at hhead
  exact hs c hhead

variable {β : Type}

/-- Texts of tokens that begin with the first one. -/
def Laid (T : List (List Char) → List β → Prop) (w : List Char) (vs : List β) : Prop :=
  ∃ ts, T ts vs ∧ Spaced ts w ∧ Stops isSpacing w

/-- There is always a first token, and it does not begin with a character of a class. -/
def Begins (q : Char → Bool) (T : List (List Char) → List β → Prop) : Prop :=
  ∀ ⦃ts : List (List Char)⦄ ⦃vs : List β⦄, T ts vs →
    ∃ c t us, ts = (c :: t) :: us ∧ q c = false

/-- A single character as a token, without a value. -/
def Punctuation (c : Char) (ts : List (List Char)) (vs : List β) : Prop := ts = [[c]] ∧ vs = []

/-- A token with a value. -/
def Valued (R : β → List Char → Prop) (ts : List (List Char)) (vs : List β) : Prop :=
  ∃ w, ts = [w] ∧ ∃ v, R v w ∧ vs = [v]

variable {A B T : List (List Char) → List β → Prop} {q : Char → Bool}
variable {w v r : List Char} {vs : List β}

theorem begins_punctuation {c : Char} (hq : q c = false) : Begins q (Punctuation (β := β) c) := by
  rintro _ vs ⟨rfl, _⟩
  exact ⟨c, [], [], rfl, hq⟩

theorem begins_valued {R : β → List Char → Prop}
    (h : ∀ v w, R v w → ∃ c u, w = c :: u ∧ q c = false) : Begins q (Valued R) := by
  rintro _ _ ⟨w, rfl, v, hv, rfl⟩
  obtain ⟨c, u, rfl, hc⟩ := h v w hv
  exact ⟨c, u, [], rfl, hc⟩

theorem follows_punctuation_iff {c : Char} {ts : List (List Char)} :
    Follows (Punctuation c) B ts vs ↔ ∃ us, B us vs ∧ ts = [c] :: us := by
  constructor
  · rintro ⟨_, us, _, _, ⟨rfl, rfl⟩, hus, rfl, rfl⟩
    exact ⟨us, hus, rfl⟩
  · rintro ⟨us, hus, rfl⟩
    exact ⟨[[c]], us, [], vs, ⟨rfl, rfl⟩, hus, rfl, rfl⟩

theorem punctuation_follows_iff {c : Char} {ts : List (List Char)} :
    Follows A (Punctuation c) ts vs ↔ ∃ us, A us vs ∧ ts = us ++ [[c]] := by
  constructor
  · rintro ⟨us, _, _, _, hus, ⟨rfl, rfl⟩, rfl, rfl⟩
    rw [List.append_nil]
    exact ⟨us, hus, rfl⟩
  · rintro ⟨us, hus, rfl⟩
    exact ⟨us, [[c]], vs, [], hus, ⟨rfl, rfl⟩, rfl, (List.append_nil vs).symm⟩

theorem follows_valued_iff {R : β → List Char → Prop} {ts : List (List Char)} :
    Follows (Valued R) B ts vs
      ↔ ∃ w v us vs', R v w ∧ B us vs' ∧ ts = w :: us ∧ vs = v :: vs' := by
  constructor
  · rintro ⟨_, us, _, vs', ⟨w, rfl, v, hv, rfl⟩, hus, rfl, rfl⟩
    exact ⟨w, v, us, vs', hv, hus, rfl, rfl⟩
  · rintro ⟨w, v, us, vs', hv, hus, rfl, rfl⟩
    exact ⟨[w], us, [v], vs', ⟨w, rfl, v, hv, rfl⟩, hus, rfl, rfl⟩

theorem Begins.mono {q' : Char → Bool} (h : Begins q T) (hq : ∀ c, q c = false → q' c = false) :
    Begins q' T := by
  intro ts vs ht
  obtain ⟨c, t, us, hts, hc⟩ := h ht
  exact ⟨c, t, us, hts, hq c hc⟩

theorem Begins.or (hA : Begins q A) (hB : Begins q B) :
    Begins q fun ts vs => A ts vs ∨ B ts vs := fun _ _ h => h.elim (fun h => hA h) fun h => hB h

theorem Begins.follows (h : Begins q A) : Begins q (Follows A B) := by
  rintro ts vs ⟨us, ts', _, _, hu, _, rfl, rfl⟩
  obtain ⟨c, t, us', rfl, hc⟩ := h hu
  exact ⟨c, t, us' ++ ts', rfl, hc⟩

theorem Laid.exists_cons (h : Laid T w vs) (hT : Begins q T) :
    ∃ c u, w = c :: u ∧ q c = false ∧ isSpacing c = false := by
  obtain ⟨ts, ht, hs, hstop⟩ := h
  obtain ⟨c, t, us, rfl, hc⟩ := hT ht
  obtain ⟨c', t', s, heq, hfirst, rfl, _⟩ := hs.exists_rest hstop
  cases heq
  exact ⟨c, t ++ s, rfl, hc, hfirst⟩

theorem Laid.ne_nil (h : Laid T w vs) (hT : Begins q T) : w ≠ [] := by
  obtain ⟨c, u, rfl, _, _⟩ := h.exists_cons hT
  exact List.cons_ne_nil c u

theorem Laid.stops_append (h : Laid T w vs) (hT : Begins q T) : Stops q (w ++ r) := by
  obtain ⟨c, u, rfl, hc, _⟩ := h.exists_cons hT
  exact stops_cons.mpr hc

theorem Laid.stops_spacing_append (h : Laid T w vs) (hT : Begins q T) :
    Stops isSpacing (w ++ r) := by
  obtain ⟨c, u, rfl, _, hc⟩ := h.exists_cons hT
  exact stops_cons.mpr hc

theorem absorbs_laid (hT : Begins q T) : Absorbs .spaced (Laid T) := by
  intro u x us h hx
  have hstop : Stops isSpacing (u ++ x) := h.stops_spacing_append hT
  obtain ⟨ts, ht, hs, _⟩ := h
  exact ⟨ts, ht, hs.append_gap hx, hstop⟩

/-- Blanks between two texts of tokens are the end of the first one. -/
theorem laid_follows_iff (hA : Begins q A) :
    Follows (Laid A) (Laid B) w vs ↔ Laid (Follows A B) w vs := by
  constructor
  · rintro ⟨u, v, us, vs', hu, ⟨ts', hts', hv, _⟩, rfl, rfl⟩
    have hstop : Stops isSpacing (u ++ v) := hu.stops_spacing_append hA
    obtain ⟨ts, hts, hu, _⟩ := hu
    exact ⟨ts ++ ts', ⟨ts, ts', us, vs', hts, hts', rfl, rfl⟩, hu.append hv, hstop⟩
  · rintro ⟨_, ⟨ts, ts', us, vs', hts, hts', rfl, rfl⟩, hw, hstop⟩
    obtain ⟨u, v, rfl, hu, hv⟩ := hw.exists_append hstop
    exact ⟨u, v, us, vs', ⟨ts, hts, hu⟩, ⟨ts', hts', hv⟩, rfl, rfl⟩

theorem laid_nil : Laid (Repeats T) [] [] := ⟨[], .nil, .nil (gap_nil _), stops_nil _⟩

/-- Blanks between many texts of tokens are the ends of those before. -/
theorem laid_repeats_iff (hT : Begins q T) :
    Repeats (Laid T) w vs ↔ Laid (Repeats T) w vs := by
  constructor
  · intro h
    induction h with
    | nil => exact laid_nil
    | @cons u v us vs' hu _ ih =>
        have hboth : Laid (Follows T (Repeats T)) (u ++ v) (us ++ vs') :=
          (laid_follows_iff hT).mp ⟨u, v, us, vs', hu, ih, rfl, rfl⟩
        obtain ⟨_, ⟨ts, ts', _, _, hts, hts', rfl, heq⟩, hs, hstop⟩ := hboth
        rw [heq]
        exact ⟨ts ++ ts', .cons hts hts', hs, hstop⟩
  · rintro ⟨ts, h, hs, hstop⟩
    induction h generalizing w with
    | nil =>
        cases hs with
        | nil hgap =>
            -- Without tokens there would be blanks alone, and the text does not begin with a blank.
            rw [← List.append_nil w] at hstop
            rw [eq_nil_of_stops hgap.spacing hstop]
            exact .nil
    | cons hts _ ih =>
        obtain ⟨u, v, rfl, hu, hv, hstop'⟩ := hs.exists_append hstop
        exact .cons ⟨_, hts, hu⟩ (ih hv hstop')

namespace Pattern

open Rules

variable {view : Node RuleName → List β} {a b : Rule}
variable {F Fa Fb : List Char → Prop}

/-- A token, with the blanks behind it. -/
theorem Reads.laid {S : List Char → List β → Prop} (h : a.Reads .spaced view S F)
    (hS : ∀ w vs, S w vs → ∃ c u, w = c :: u ∧ isSpacing c = false) {F' : List Char → Prop}
    (hF : ∀ x r, Gap .spaced x → F' r → F (x ++ r)) :
    a.Reads .spaced view (Laid fun ts vs => ∃ w, ts = [w] ∧ S w vs) F' where
  sound := by
    intro c next nodes hfound
    obtain ⟨w, hw, hs⟩ := h.sound hfound
    obtain ⟨d, u, rfl, hd⟩ := hS w _ hs
    exact ⟨d :: u, hw, [d :: u], ⟨d :: u, rfl, hs⟩, .token u hd, stops_cons.mpr hd⟩
  complete := by
    rintro c next w vs hpast ⟨_, ⟨u, rfl, hs⟩, hspaced, hstop⟩ hf
    obtain ⟨_, _, x, _, _, rfl, hx⟩ := hspaced.exists_rest hstop
    -- The token ends in front of the blanks, and the place behind them is the same one.
    obtain ⟨between, hu, hgap⟩ := Place.past_append_iff.mp hpast
    cases hx with
    | nil hx =>
        obtain ⟨nodes, stop, hfound, hskip, hvs⟩ := h.complete hu hs <| by
          rw [hgap.rest]
          exact hF x next.rest hx hf
        exact ⟨nodes, stop, hfound, hskip.trans (hgap.skip_eq_skip hx), hvs⟩

/-- A single character as a token. -/
theorem reads_punctuation (c : Char) (hc : isSpacing c = false) :
    Reads (ρ := RuleName) (.word [c]) .spaced view (Laid (Punctuation c)) fun _ => True := by
  have htoken : Reads (ρ := RuleName) (.word [c]) .spaced view
      (Laid fun ts vs => ∃ w, ts = [w] ∧ w = [c] ∧ vs = []) fun _ => True :=
    (reads_word [c]).laid (fun _ _ h => ⟨c, [], h.1, hc⟩) fun _ _ _ _ => trivial
  refine htoken.congr (fun w vs => ?_) fun _ hr => hr
  constructor
  · rintro ⟨_, ⟨_, rfl, rfl, hvs⟩, hw⟩
    exact ⟨_, ⟨rfl, hvs⟩, hw⟩
  · rintro ⟨_, ⟨rfl, hvs⟩, hw⟩
    exact ⟨_, ⟨_, rfl, rfl, hvs⟩, hw⟩

/-- The first pattern of tokens that matches, where no text of the second one looks like the
    first. -/
theorem Reads.laid_choice (ha : a.Reads .spaced view (Laid A) Fa)
    (hb : b.Reads .spaced view (Laid B) Fb)
    (hfails : ∀ w vs r, Laid B w vs → Fb r → a.Fails .spaced (w ++ r)) :
    (Pattern.choice a b).Reads .spaced view (Laid fun ts vs => A ts vs ∨ B ts vs)
      (fun r => Fa r ∧ Fb r) := by
  refine (ha.choice hb hfails).congr (fun w vs => ?_) fun _ hr => hr
  constructor
  · rintro (⟨ts, hts, hw⟩ | ⟨ts, hts, hw⟩)
    · exact ⟨ts, Or.inl hts, hw⟩
    · exact ⟨ts, Or.inr hts, hw⟩
  · rintro ⟨ts, hts | hts, hw⟩
    · exact Or.inl ⟨ts, hts, hw⟩
    · exact Or.inr ⟨ts, hts, hw⟩

/-- One pattern of tokens behind another. -/
theorem Reads.laid_sequence (ha : a.Reads .spaced view (Laid A) Fa)
    (hb : b.Reads .spaced view (Laid B) Fb) (hA : Begins q A)
    (hfollow : ∀ v vs r, Laid B v vs → Fb r → Fa (v ++ r) ∧ Stops isSpacing (v ++ r)) :
    (Pattern.sequence a b).Reads .spaced view (Laid (Follows A B)) Fb :=
  (ha.sequence hb (absorbs_laid hA) (fun v vs r hv hr => (hfollow v vs r hv hr).1)
    fun _ v vs r hv hr => (hfollow v vs r hv hr).2).congr (fun _ _ => laid_follows_iff hA)
    fun _ hr => hr

/-- A repeated pattern of tokens, up to a text that does not look like one. -/
theorem Reads.laid_repeated (ha : a.Reads .spaced view (Laid A) Fa) (hA : Begins q A)
    (hfollow : ∀ w vs r, Laid A w vs → Fa (w ++ r))
    (hend : ∀ r, F r → Fa r ∧ a.Fails .spaced r ∧ Stops isSpacing r) :
    (Pattern.repeated a).Reads .spaced view (Laid (Repeats A)) F := by
  refine (ha.repeated (absorbs_laid hA) (fun w vs hw => hw.ne_nil hA)
    (fun _ w vs r hw => hw.stops_spacing_append hA) hfollow fun r hr => ?_).congr
    (fun _ _ => laid_repeats_iff hA) fun _ hr => hr
  obtain ⟨hfollow, hfails, hstop⟩ := hend r hr
  exact ⟨hfollow, hfails, fun _ => hstop⟩

/-- A parse succeeds with what a run from the beginning finds. -/
theorem parse_eq_ok_iff {ρ : Type} {p : Pattern ρ} {input : List Char} {nodes : List (Node ρ)} :
    p.parse input = .ok nodes ↔ ∃ last, (p.run .spaced ⟨input, 0⟩).found = some (nodes, last) := by
  rw [parse]
  rcases p.run .spaced ⟨input, 0⟩ with ⟨f, _ | ⟨nodes', last⟩⟩
  · exact ⟨fun h => (by cases h), fun ⟨_, h⟩ => (by cases h)⟩
  · constructor
    · intro h
      cases h
      exact ⟨last, rfl⟩
    · rintro ⟨last', h⟩
      cases h
      rfl

theorem reads_endOfInput {ending : List β}
    (hview : ∀ i j w, view ⟨.endOfInput, i, j, w, []⟩ = ending) :
    endOfInput.Reads .spaced view (fun w vs => w = [] ∧ vs = ending) fun r => r = [] :=
  readsToken_finish.rule (by decide) hview

/-- From the beginning of a text, what a rule for whole texts finds is its body behind
    blanks and the end of the text. -/
theorem found_whole {body : Rule} {input : List Char} :
    ((whole body).run .spaced ⟨input, 0⟩).found
      = ((sequence body endOfInput).run .spaced (Place.skip .spaced ⟨input, 0⟩)).found := by
  rw [whole, inOrder, inOrder, inOrder, found_sequence, found_start, if_pos rfl]
  simp

/-- Nothing is left behind the end of a text. -/
theorem rest_of_endOfInput {body : Rule} {c last : Place} {nodes : List (Node RuleName)}
    (h : ((sequence body endOfInput).run .spaced c).found = some (nodes, last)) :
    last.rest = [] := by
  rw [found_sequence, Option.bind_eq_some_iff] at h
  obtain ⟨⟨first, between⟩, _, hsecond⟩ := h
  obtain ⟨⟨more, stop⟩, hmore, heq⟩ := Option.map_eq_some_iff.mp hsecond
  cases heq
  rw [endOfInput, found_token (by decide), found_finish] at hmore
  split at hmore
  · next hnil =>
    cases hmore
    exact List.isEmpty_iff.mp hnil
  · cases hmore

/-- A rule for whole texts leaves one node. -/
theorem parse_whole_iff {name : RuleName} {body : Rule} {input : List Char}
    {nodes : List (Node RuleName)} :
    (rule name .spaced (whole body)).parse input = .ok nodes
      ↔ ∃ children last, ((sequence body endOfInput).run .spaced
          (Place.skip .spaced ⟨input, 0⟩)).found = some (children, last) ∧
        nodes = [⟨name, 0, last.offset, input.take (input.length - last.rest.length),
          children⟩] := by
  have hrule : ((rule name .spaced (whole body)).run .spaced ⟨input, 0⟩).found = _ :=
    found_rule_of_ne (by decide) (by decide)
  rw [innerMode, if_pos rfl, found_whole] at hrule
  rw [parse_eq_ok_iff, hrule]
  -- The rule puts one node around all that its body finds.
  constructor
  · rintro ⟨last, h⟩
    obtain ⟨⟨children, behind⟩, hfound, heq⟩ := Option.map_eq_some_iff.mp h
    cases heq
    exact ⟨children, last, hfound, rfl⟩
  · rintro ⟨children, last, hfound, rfl⟩
    rw [hfound]
    exact ⟨last, rfl⟩

/-- The node of a rule for whole texts is all that its parse leaves. -/
theorem node_eq_ok_iff {name : RuleName} {body : Rule}
    (hpattern : name.pattern = rule name .spaced (whole body)) {expected : String}
    {input : List Char} {node : Node RuleName} :
    name.node expected input = .ok node
      ↔ (rule name .spaced (whole body)).parse input = .ok [node] := by
  rw [RuleName.node, hpattern]
  rcases hparse : (rule name .spaced (whole body)).parse input with offset | nodes
  · exact ⟨fun h => (by cases h), fun h => (by cases h)⟩
  · obtain ⟨children, last, _, rfl⟩ := parse_whole_iff.mp hparse
    constructor
    · intro h
      cases h
      rfl
    · intro h
      cases h
      rfl

section Whole

variable {body : Rule} {expected : String} {input : List Char} {ending : List β}

theorem Reads.sequence_endOfInput (h : body.Reads .spaced view (Laid T) F) (hT : Begins q T)
    (hfollow : F []) (hview : ∀ i j w, view ⟨.endOfInput, i, j, w, []⟩ = ending) :
    (Pattern.sequence body endOfInput).Reads .spaced view
      (Follows (Laid T) fun w vs => w = [] ∧ vs = ending) fun r => r = [] :=
  h.sequence (reads_endOfInput hview) (absorbs_laid hT)
    (fun v vs' r hv hr => by rw [hv.1, hr]; exact hfollow)
    fun _ v vs' r hv hr => by rw [hv.1, hr]; exact stops_nil _

/-- What a rule for whole texts reads is the tokens of its body, with spaces and tabs around
    them, and then the end. -/
theorem Reads.node_sound (name : RuleName) (h : body.Reads .spaced view (Laid T) F)
    (hT : Begins q T) (hfollow : F []) (hview : ∀ i j w, view ⟨.endOfInput, i, j, w, []⟩ = ending)
    (hpattern : name.pattern = Pattern.rule name .spaced (whole body)) {node : Node RuleName}
    (hnode : name.node expected input = .ok node) :
    ∃ ts vs, T ts vs ∧ Spaced ts input ∧ node.children.flatMap view = vs ++ ending := by
  have hparse := (node_eq_ok_iff hpattern).mp hnode
  obtain ⟨children, last, hfound, hsingle⟩ := parse_whole_iff.mp hparse
  obtain rfl := List.singleton_inj.mp hsingle
  obtain ⟨w, hw, u, v, vs, _, ⟨ts, hts, hs, _⟩, ⟨rfl, rfl⟩, rfl, heq⟩ :=
    (h.sequence_endOfInput hT hfollow hview).sound hfound
  obtain ⟨x, hx, hskip⟩ := Place.past_skip .spaced ⟨input, 0⟩
  have hinput : input = x ++ u :=
    calc input = x ++ (Place.skip .spaced ⟨input, 0⟩).rest := hskip.rest
      _ = x ++ ((u ++ []) ++ last.rest) := by rw [hw.rest]
      _ = x ++ u := by rw [rest_of_endOfInput hfound, List.append_nil, List.append_nil]
  rw [hinput]
  exact ⟨ts, vs, hts, hs.gap_append hx, heq⟩

/-- The tokens of its body, with spaces and tabs around them, are read by a rule for whole
    texts. -/
theorem Reads.node_complete (name : RuleName) (h : body.Reads .spaced view (Laid T) F)
    (hT : Begins q T) (hfollow : F []) (hview : ∀ i j w, view ⟨.endOfInput, i, j, w, []⟩ = ending)
    (hpattern : name.pattern = Pattern.rule name .spaced (whole body)) {ts : List (List Char)}
    {vs : List β} (hts : T ts vs) (hs : Spaced ts input) :
    ∃ node, name.node expected input = .ok node ∧ node.children.flatMap view = vs ++ ending := by
  obtain ⟨x, w, rfl, hx, hw, hstop⟩ := hs.exists_gap
  have hskip : Place.skip .spaced ⟨x ++ w, 0⟩ = ⟨w, Text.byteLength x⟩ :=
    Place.Past.skip_eq ⟨rfl, (Nat.zero_add _).symm⟩ hx fun _ => hstop
  have hpast : (⟨w, Text.byteLength x⟩ : Place).Past w
      ⟨[], Text.byteLength x + Text.byteLength w⟩ := ⟨(List.append_nil _).symm, rfl⟩
  obtain ⟨children, last, hfound, _, hvs⟩ :=
    (h.sequence_endOfInput hT hfollow hview).complete hpast
      ⟨w, [], vs, ending, ⟨ts, hts, hw, hstop⟩, ⟨rfl, rfl⟩, (List.append_nil w).symm, rfl⟩ rfl
  rw [← hskip] at hfound
  exact ⟨_, (node_eq_ok_iff hpattern).mpr (parse_whole_iff.mpr ⟨children, last, hfound, rfl⟩), hvs⟩

end Whole

end Pattern

end Grammar

end MapStyling
