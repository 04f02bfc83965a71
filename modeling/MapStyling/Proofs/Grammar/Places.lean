import MapStyling.Grammar.Pattern

/-!
# Places Behind Texts

Where a run of a pattern stands after it has read a text.

A place is what is left of the input, and a run only ever moves a place to one further
back. So what was read is the difference between two places, and `Place.Past` says that a
text is this difference. Between the parts of a spaced rule a run passes over blanks, as
many as there are, and two places are as good as one if they are the same behind blanks.

## Main definitions

* `Stops`: Texts that do not begin with a character of a class.
* `Place.Past`: A place behind a text that stands at another place.
* `Gap`: Texts that may stand between the parts of a rule.

## Theorems

* `Place.past_append_iff`: Texts are read one after the other.
* `Place.past_skip`, `Place.Past.skip_eq`: Skipping reads a gap, and as much of it as there is.
* `Pattern.found_sequence`, `Pattern.found_choice`, `Pattern.found_optional`,
  `Pattern.found_rule`: What a run finds, by the parts of a pattern.
-/

namespace MapStyling

namespace Text

theorem byteLength_cons (c : Char) (s : List Char) :
    byteLength (c :: s) = c.utf8Size + byteLength s := by
  have hstart : ∀ (s : List Char) (n : Nat),
      s.foldl (fun n c => n + c.utf8Size) n = n + byteLength s := by
    intro s
    induction s with
    | nil => intro n; rfl
    | cons d s ih =>
        intro n
        rw [byteLength, List.foldl_cons, List.foldl_cons, ih, ih (0 + d.utf8Size)]
        omega
  rw [byteLength, List.foldl_cons, hstart, Nat.zero_add]

theorem byteLength_append (s t : List Char) :
    byteLength (s ++ t) = byteLength s + byteLength t := by
  induction s with
  | nil => exact (Nat.zero_add _).symm
  | cons c s ih => rw [List.cons_append, byteLength_cons, byteLength_cons, ih, Nat.add_assoc]

end Text

namespace Grammar

/-- A text that is empty or begins with a character outside of a class. -/
def Stops (p : Char → Bool) (s : List Char) : Prop := ∀ c ∈ s.head?, p c = false

theorem stops_nil (p : Char → Bool) : Stops p [] := fun _ h => by cases h

theorem stops_cons {p : Char → Bool} {c : Char} {s : List Char} :
    Stops p (c :: s) ↔ p c = false := by
  simp [Stops]

/-- A text that begins outside of a class does so whatever stands behind it. -/
theorem Stops.append_of_ne_nil {p : Char → Bool} {s t : List Char} (h : Stops p s) (hne : s ≠ []) :
    Stops p (s ++ t) := by
  cases s with
  | nil => exact absurd rfl hne
  | cons c s => exact stops_cons.mpr (stops_cons.mp h)

theorem Stops.mono {p q : Char → Bool} {s : List Char} (h : Stops q s)
    (hpq : ∀ c, q c = false → p c = false) : Stops p s :=
  fun c hc => hpq c (h c hc)

/-- What begins a text that does not begin with a character of a class. -/
theorem eq_nil_of_stops {p : Char → Bool} {x s : List Char} (hx : ∀ c ∈ x, p c = true)
    (h : Stops p (x ++ s)) : x = [] := by
  cases x with
  | nil => rfl
  | cons c x =>
      have hc := hx c List.mem_cons_self
      rw [stops_cons.mp h] at hc
      cases hc

theorem stops_dropWhile (p : Char → Bool) (s : List Char) : Stops p (s.dropWhile p) := by
  intro c hc
  have hfirst := List.head?_dropWhile_not p s
  rw [Option.mem_def.mp hc] at hfirst
  exact hfirst

theorem takeWhile_append_of_stops {p : Char → Bool} {w r : List Char} (hw : ∀ c ∈ w, p c = true)
    (hr : Stops p r) : (w ++ r).takeWhile p = w := by
  rw [List.takeWhile_append_of_pos hw]
  cases r with
  | nil => exact List.append_nil w
  | cons c r =>
      rw [List.takeWhile_cons, stops_cons.mp hr]
      exact List.append_nil w

theorem dropWhile_append_of_stops {p : Char → Bool} {w r : List Char}
    (hw : ∀ c ∈ w, p c = true) (hr : Stops p r) : (w ++ r).dropWhile p = r := by
  have hboth : w ++ (w ++ r).dropWhile p = w ++ r :=
    calc w ++ (w ++ r).dropWhile p
        = (w ++ r).takeWhile p ++ (w ++ r).dropWhile p := by rw [takeWhile_append_of_stops hw hr]
      _ = w ++ r := List.takeWhile_append_dropWhile
  exact List.append_cancel_left hboth

/-- Characters that may stand between the parts of a rule. -/
def isSpacing (c : Char) : Bool := c = ' ' || c = '\t'

theorem isSpacing_iff {c : Char} : isSpacing c = true ↔ c = ' ' ∨ c = '\t' := by
  rw [isSpacing, Bool.or_eq_true, decide_eq_true_eq, decide_eq_true_eq]

/-- Texts that may stand between the parts of a rule. -/
structure Gap (m : Mode) (x : List Char) : Prop where
  spacing : ∀ c ∈ x, isSpacing c = true
  eq_nil : m ≠ .spaced → x = []

theorem gap_nil (m : Mode) : Gap m [] := ⟨fun _ h => absurd h List.not_mem_nil, fun _ => rfl⟩

theorem gap_spaced {x : List Char} (h : ∀ c ∈ x, isSpacing c = true) : Gap .spaced x :=
  ⟨h, fun hne => absurd rfl hne⟩

theorem Gap.append {m : Mode} {x y : List Char} (hx : Gap m x) (hy : Gap m y) : Gap m (x ++ y) where
  spacing := fun c hc => (List.mem_append.mp hc).elim (hx.spacing c) (hy.spacing c)
  eq_nil := fun hm => by rw [hx.eq_nil hm, hy.eq_nil hm]; rfl

/-- A gap begins with spacing if it begins at all. -/
theorem Gap.stops {m : Mode} {x r : List Char} {p : Char → Bool} (h : Gap m x)
    (hp : ∀ c, isSpacing c = true → p c = false) (hr : Stops p r) : Stops p (x ++ r) := by
  cases x with
  | nil => exact hr
  | cons c x => exact stops_cons.mpr (hp c (h.spacing c List.mem_cons_self))

namespace Place

/-- The place behind a text that stands at a place. -/
structure Past (c : Place) (w : List Char) (next : Place) : Prop where
  rest : c.rest = w ++ next.rest
  offset : next.offset = c.offset + Text.byteLength w

theorem past_nil (c : Place) : c.Past [] c := ⟨rfl, rfl⟩

theorem past_advance {c : Place} {w r : List Char} (h : c.rest = w ++ r) :
    c.Past w (c.advance w.length) := by
  refine ⟨?_, ?_⟩
  · rw [advance, h, List.drop_left]
  · rw [advance, h, List.take_left]

theorem Past.eq_advance {c next : Place} {w : List Char} (h : c.Past w next) :
    next = c.advance w.length := by
  obtain ⟨rest, offset⟩ := next
  rw [advance, h.rest, List.drop_left, List.take_left]
  exact congrArg (Place.mk rest) h.offset

theorem Past.eq {c next next' : Place} {w : List Char} (h : c.Past w next)
    (h' : c.Past w next') : next' = next :=
  h'.eq_advance.trans h.eq_advance.symm

/-- Texts are read one after the other. -/
theorem past_append_iff {c next : Place} {u v : List Char} :
    c.Past (u ++ v) next ↔ ∃ between, c.Past u between ∧ between.Past v next := by
  constructor
  · intro h
    have hrest : c.rest = u ++ (v ++ next.rest) := by rw [h.rest, List.append_assoc]
    refine ⟨⟨v ++ next.rest, c.offset + Text.byteLength u⟩, ⟨hrest, rfl⟩, ⟨rfl, ?_⟩⟩
    rw [h.offset, Text.byteLength_append, Nat.add_assoc]
  · rintro ⟨between, hu, hv⟩
    refine ⟨by rw [hu.rest, hv.rest, List.append_assoc], ?_⟩
    rw [hv.offset, hu.offset, Text.byteLength_append, Nat.add_assoc]

theorem past_skipWhile (p : Char → Bool) (c : Place) :
    c.Past (c.rest.takeWhile p) (c.skipWhile p) ∧ Stops p (c.skipWhile p).rest := by
  have hpast : c.Past (c.rest.takeWhile p) (c.skipWhile p) :=
    past_advance List.takeWhile_append_dropWhile.symm
  refine ⟨hpast, ?_⟩
  have hrest : (c.skipWhile p).rest = c.rest.dropWhile p :=
    List.append_cancel_left (hpast.rest.symm.trans List.takeWhile_append_dropWhile.symm)
  rw [hrest]
  exact stops_dropWhile p c.rest

theorem Past.skipWhile_eq {p : Char → Bool} {c next : Place} {w : List Char} (h : c.Past w next)
    (hw : ∀ x ∈ w, p x = true) (hstop : Stops p next.rest) : c.skipWhile p = next := by
  rw [skipWhile, h.rest, takeWhile_append_of_stops hw hstop]
  exact h.eq_advance.symm

theorem skip_of_ne {m : Mode} (h : m ≠ .spaced) (c : Place) : c.skip m = c := if_neg h

/-- Skipping reads a gap. -/
theorem past_skip (m : Mode) (c : Place) : ∃ x, Gap m x ∧ c.Past x (c.skip m) := by
  by_cases hm : m = .spaced
  · subst hm
    refine ⟨c.rest.takeWhile isSpacing, gap_spaced fun x hx => ?_, (past_skipWhile _ c).1⟩
    exact List.all_eq_true.mp List.all_takeWhile x hx
  · rw [skip_of_ne hm]
    exact ⟨[], gap_nil m, past_nil c⟩

/-- Skipping reads all of a gap. -/
theorem Past.skip_eq {m : Mode} {c next : Place} {x : List Char} (h : c.Past x next)
    (hx : Gap m x) (hstop : m = .spaced → Stops isSpacing next.rest) : c.skip m = next := by
  by_cases hm : m = .spaced
  · subst hm
    exact h.skipWhile_eq hx.spacing (hstop rfl)
  · rw [skip_of_ne hm]
    rw [hx.eq_nil hm] at h
    exact h.eq (past_nil c)

theorem stops_skip (c : Place) : Stops isSpacing (c.skip .spaced).rest := (past_skipWhile _ c).2

theorem skip_skip (m : Mode) (c : Place) : (c.skip m).skip m = c.skip m :=
  (past_nil _).skip_eq (gap_nil m) fun hm => by
    subst hm
    exact stops_skip c

/-- Skipping from in front of a gap comes to the same place as from behind it. -/
theorem Past.skip_eq_skip {m : Mode} {c next : Place} {x : List Char} (h : c.Past x next)
    (hx : Gap m x) : c.skip m = next.skip m := by
  obtain ⟨y, hy, hskip⟩ := next.past_skip m
  refine Past.skip_eq (past_append_iff.mpr ⟨next, h, hskip⟩) (hx.append hy) fun hm => ?_
  subst hm
  exact stops_skip next

end Place

namespace Pattern

variable {ρ : Type} (m : Mode) (c : Place)

theorem found_oneOrMore (p : Char → Bool) : ((oneOrMore p : Pattern ρ).run m c).found
    = if (c.rest.takeWhile p).length = 0 then none else some ([], c.skipWhile p) := rfl

theorem found_zeroOrMore (p : Char → Bool) :
    ((zeroOrMore p : Pattern ρ).run m c).found = some ([], c.skipWhile p) := rfl

theorem found_word (t : List Char) : ((word t : Pattern ρ).run m c).found
    = if t.isPrefixOf c.rest then some ([], c.advance t.length) else none := rfl

theorem found_anyCase (t : List Char) : ((anyCase t : Pattern ρ).run m c).found
    = if afterAnyCase? t c.rest then some ([], c.advance t.length) else none := rfl

theorem found_start : ((start : Pattern ρ).run m c).found
    = if c.offset = 0 then some ([], c) else none := rfl

theorem found_finish : ((finish : Pattern ρ).run m c).found
    = if c.rest.isEmpty then some ([], c) else none := rfl

variable {m c}

theorem found_sequence {a b : Pattern ρ} : ((sequence a b).run m c).found
    = (a.run m c).found.bind fun (nodes, next) =>
      (b.run m (next.skip m)).found.map fun (more, last) => (nodes ++ more, last) := by
  rw [run]
  rcases a.run m c with ⟨f, _ | ⟨nodes, next⟩⟩ <;> rfl

theorem found_choice {a b : Pattern ρ} :
    ((choice a b).run m c).found = (a.run m c).found.or (b.run m c).found := by
  rw [run]
  rcases a.run m c with ⟨f, _ | ⟨nodes, next⟩⟩ <;> rfl

theorem found_optional {a : Pattern ρ} :
    ((optional a).run m c).found = some ((a.run m c).found.getD ([], c)) := by
  rw [run]
  rcases a.run m c with ⟨f, _ | ⟨nodes, next⟩⟩ <;> rfl

/-- What a mode of a rule is inside of another one. -/
def innerMode (m mode : Mode) : Mode := if mode = .spaced then m else mode

theorem found_rule {name : ρ} {mode : Mode} {body : Pattern ρ} :
    ((rule name mode body).run m c).found
      = (body.run (innerMode m mode) c).found.map fun (nodes, next) =>
        (if m = .token then [] else [Node.mk name c.offset next.offset
          (c.rest.take (c.rest.length - next.rest.length))
          (if innerMode m mode = .token then [] else nodes)], next) := by
  rw [run, innerMode]
  rcases body.run (if mode = .spaced then m else mode) c with ⟨f, _ | ⟨nodes, next⟩⟩ <;> rfl

/-- A token leaves a node with nothing in it. -/
theorem found_token {name : ρ} {body : Pattern ρ} (hm : m ≠ .token) :
    ((rule name .token body).run m c).found
      = (body.run .token c).found.map fun (_, next) => ([Node.mk name c.offset next.offset
          (c.rest.take (c.rest.length - next.rest.length)) []], next) := by
  rw [found_rule]
  simp only [hm, if_false]
  rfl

theorem innerMode_ne {mode : Mode} (hm : m ≠ .token) (hmode : mode ≠ .token) :
    innerMode m mode ≠ .token := by
  rw [innerMode]
  split
  · exact hm
  · exact hmode

/-- Any other rule leaves a node with the nodes of its body in it. -/
theorem found_rule_of_ne {name : ρ} {mode : Mode} {body : Pattern ρ} (hm : m ≠ .token)
    (hmode : mode ≠ .token) : ((rule name mode body).run m c).found
      = (body.run (innerMode m mode) c).found.map fun (nodes, next) =>
        ([Node.mk name c.offset next.offset
          (c.rest.take (c.rest.length - next.rest.length)) nodes], next) := by
  rw [found_rule]
  simp only [hm, innerMode_ne hm hmode, if_false]

end Pattern

end Grammar

end MapStyling
