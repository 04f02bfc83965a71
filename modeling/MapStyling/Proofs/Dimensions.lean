import MapStyling.Proofs.Grammar.Numbers
import MapStyling.Proofs.Grammar.Tokens
import MapStyling.Style.Reading

/-!
# Lists of Dimensions

The texts that are read as lists of numbers with units.

A list is dimensions with commas between them, bare or in one pair of brackets, and spaces
and tabs may stand around every token. A dimension is one token: the unit stands directly
behind the number, so a blank between the two makes the text something else.

The rules commit themselves at four places, and nothing is lost at any of them. A number
takes all the characters that it can, and no unit begins with one of those. `ms` is tried
before `m`, so only what `m` is followed by could be mistaken, and no list goes on with an
`s`. An opening bracket is no dimension. And a comma that is not followed by a dimension is
given back, but nothing that may follow a list begins with one.

## Main definitions

* `Dimension.Spells`: The text of a dimension.
* `Dimension.Listed`: The text of a list of dimensions.

## Theorems

* `Dimension.readList_eq_ok_iff`: What is read as a list, and as which one.
-/

namespace MapStyling

open Grammar

namespace Dimension

open Literal (literals literal?)

/-- What stands behind a number for a unit, or for none. -/
def unitText : Option MeasureUnit → List Char
  | none => []
  | some u => u.suffix.toList

/-- The text of a dimension: a literal of its value and, directly behind it, its unit. -/
def Spells (d : Dimension) (w : List Char) : Prop :=
  ∃ n ∈ literals, literal? n = some d.value ∧ w = n ++ unitText d.unit

/-- The text of a list of dimensions: at least one, commas between them, and one pair of
    brackets around all of them or none. -/
def Listed (ds : List Dimension) (input : List Char) : Prop :=
  ∃ texts, texts ≠ [] ∧ List.Forall₂ Spells ds texts ∧
    (Spaced (texts.intersperse [',']) input ∨
      Spaced (['['] :: (texts.intersperse [','] ++ [[']']])) input)

/-- Characters that could be more of a dimension. -/
def goesOn (c : Char) : Bool := numberGoesOn c || c = 'p' || c = 'm' || c = 's' || c = '%'

/-- Characters that could be more of a list. -/
def listGoesOn (c : Char) : Bool := goesOn c || c = ',' || isSpacing c

theorem numberGoesOn_of_goesOn {c : Char} (h : goesOn c = false) : numberGoesOn c = false := by
  simp only [goesOn, Bool.or_eq_false_iff] at h
  exact h.1.1.1.1

theorem goesOn_of_isSpacing {c : Char} (h : isSpacing c = true) : goesOn c = false := by
  rcases isSpacing_iff.mp h with rfl | rfl <;> rfl

/-- The units, in the order in which they are tried. -/
def units : List String := ["px", "ms", "m", "s", "%"]

theorem mem_units {w : List Char} : w ∈ wordsOf units ↔ ∃ u : MeasureUnit, w = u.suffix.toList := by
  rw [mem_wordsOf]
  constructor
  · intro h
    simp only [units, List.map_cons, List.map_nil, List.mem_cons, List.not_mem_nil, or_false] at h
    rcases h with rfl | rfl | rfl | rfl | rfl
    · exact ⟨.pixel, rfl⟩
    · exact ⟨.millisecond, rfl⟩
    · exact ⟨.meter, rfl⟩
    · exact ⟨.second, rfl⟩
    · exact ⟨.percentage, rfl⟩
  · rintro ⟨u, rfl⟩
    refine List.mem_map_of_mem ?_
    cases u <;> decide

/-- Only `m` could be taken for the beginning of another unit, of `ms`. -/
theorem apart_units {r : List Char} (h : Stops goesOn r) : Apart units r := by
  have hs : ['s'].isPrefixOf r = false := Pattern.isPrefixOf_of_stops h rfl
  simpa [Apart, units, List.isPrefixOf] using hs

theorem exists_suffix (u : MeasureUnit) : ∃ c t, u.suffix.toList = c :: t ∧ goesOn c = true := by
  cases u <;> exact ⟨_, _, rfl, rfl⟩

/-- No unit begins with what could be more of a number. -/
theorem stops_unitText (u : Option MeasureUnit) {r : List Char} (h : Stops goesOn r) :
    Stops numberGoesOn (unitText u ++ r) := by
  cases u with
  | none => exact h.mono fun c => numberGoesOn_of_goesOn
  | some u => cases u <;> exact stops_cons.mpr rfl

/-- A node inside of a dimension, without its place. -/
def label (n : Node RuleName) : List (RuleName × List Char) := [(n.name, n.text)]

/-- What a unit leaves behind. -/
def unitLabel : Option MeasureUnit → List (RuleName × List Char)
  | none => []
  | some u => [(.unit, u.suffix.toList)]

/-- A unit or nothing, up to what could be more of a dimension. -/
theorem reads_unit : (Pattern.optional Rules.unit).Reads .joined label
    (fun w vs => ∃ u, w = unitText u ∧ vs = unitLabel u) (Stops goesOn) := by
  have hunit : Rules.unit.Reads .joined label
      (fun w vs => w ∈ wordsOf units ∧ vs = [(.unit, w)]) (Apart units) :=
    (reads_oneOf "px" ["ms", "m", "s", "%"]).rule (by decide) fun _ _ _ => rfl
  -- Where there is no unit, nothing of one stands behind the number.
  refine hunit.optional.congr (fun w vs => ?_) fun r hr => ⟨apart_units hr, ?_⟩
  · constructor
    · rintro (⟨hw, rfl⟩ | ⟨rfl, rfl⟩)
      · obtain ⟨u, rfl⟩ := mem_units.mp hw
        exact ⟨some u, rfl, rfl⟩
      · exact ⟨none, rfl, rfl⟩
    · rintro ⟨_ | u, rfl, rfl⟩
      · exact Or.inr ⟨rfl, rfl⟩
      · exact Or.inl ⟨mem_units.mpr ⟨u, rfl⟩, rfl⟩
  · refine Pattern.Fails.rule (fails_oneOf fun v hv => ?_)
    obtain ⟨u, hu⟩ := mem_units.mp (List.mem_map_of_mem (f := String.toList) hv)
    obtain ⟨c, t, hsuffix, hc⟩ := exists_suffix u
    rw [hu, hsuffix]
    exact Pattern.isPrefixOf_of_stops hr hc

/-- A number with its unit directly behind it. -/
theorem reads_numberWithUnit : (Pattern.sequence Rules.number (.optional Rules.unit)).Reads .joined
    label (fun w vs => ∃ n ∈ literals, ∃ u, w = n ++ unitText u ∧
      vs = (.number, n) :: unitLabel u) (Stops goesOn) := by
  have hnumber : Rules.number.Reads .joined label
      (fun w vs => w ∈ literals ∧ vs = [(.number, w)]) (Stops numberGoesOn) :=
    readsToken_number.rule (by decide) fun _ _ _ => rfl
  have hboth := hnumber.sequence reads_unit (absorbs_of_ne (by decide) _)
    (fun v vs r hv hr => ?_) (fun hm => by cases hm)
  · refine hboth.congr (fun w vs => ?_) fun _ hr => hr
    constructor
    · rintro ⟨n, _, _, _, ⟨hn, rfl⟩, ⟨u, rfl, rfl⟩, rfl, rfl⟩
      exact ⟨n, hn, u, rfl, rfl⟩
    · rintro ⟨n, hn, u, rfl, rfl⟩
      exact ⟨n, unitText u, _, _, ⟨hn, rfl⟩, ⟨u, rfl, rfl⟩, rfl, rfl⟩
  · obtain ⟨u, rfl, rfl⟩ := hv
    exact stops_unitText u hr

/-- The dimension with a number and a unit inside. -/
def ofLabels (labels : List (RuleName × List Char)) : Dimension where
  value := ((labels.find? fun l => l.1 = .number).map fun l =>
    (literal? l.2).getD Double.nan).getD Double.nan
  unit := (labels.find? fun l => l.1 = .unit).bind fun l =>
    MeasureUnit.ofSuffix? (String.ofList l.2)

theorem ofNode_eq (i j : Nat) (w : List Char) (nodes : List (Node RuleName)) :
    ofNode ⟨.dimension, i, j, w, nodes⟩ = ofLabels (nodes.flatMap label) := by
  have hmap : nodes.flatMap label = nodes.map fun n => (n.name, n.text) :=
    List.map_eq_flatMap.symm
  rw [ofNode, ofLabels, hmap, List.find?_map, List.find?_map, Option.map_map, Option.bind_map]
  rfl

theorem ofLabels_unitLabel (n : List Char) (u : Option MeasureUnit) :
    ofLabels ((.number, n) :: unitLabel u) = ⟨(literal? n).getD Double.nan, u⟩ := by
  rcases u with _ | u
  · rfl
  · cases u <;> rfl

theorem reads_dimension : Rules.dimension.Reads .spaced (fun n => [ofNode n])
    (fun w vs => ∃ d, Spells d w ∧ vs = [d]) (Stops goesOn) := by
  have hrule : Rules.dimension.Reads .spaced (fun n => [ofNode n]) _ (Stops goesOn) :=
    reads_numberWithUnit.rule (g := fun labels => [ofLabels labels]) (by decide) (by decide)
      fun i j w nodes => congrArg (fun d => [d]) (ofNode_eq i j w nodes)
  refine hrule.congr (fun w vs => ?_) fun _ hr => hr
  constructor
  · rintro ⟨_, ⟨n, hn, u, rfl, rfl⟩, rfl⟩
    rw [ofLabels_unitLabel]
    obtain ⟨v, hv⟩ := Option.isSome_iff_exists.mp (Literal.isSome_literal? hn)
    rw [hv]
    exact ⟨⟨v, u⟩, ⟨n, hn, hv, rfl⟩, rfl⟩
  · rintro ⟨⟨v, u⟩, ⟨n, hn, hv, rfl⟩, rfl⟩
    refine ⟨_, ⟨n, hn, u, rfl, rfl⟩, ?_⟩
    rw [ofLabels_unitLabel, hv]
    rfl

/-- A dimension as a token. -/
def One : List (List Char) → List Dimension → Prop := Valued Spells

/-- A dimension, and any number of them with commas in front. -/
def Many : List (List Char) → List Dimension → Prop :=
  Follows One (Repeats (Follows (Punctuation ',') One))

theorem Spells.exists_cons {d : Dimension} {w : List Char} (h : Spells d w) :
    ∃ c u, w = c :: u ∧ beginsLiteral c = true := by
  obtain ⟨n, hn, _, rfl⟩ := h
  obtain ⟨c, u, rfl, hc⟩ := exists_cons_of_mem_literals hn
  exact ⟨c, u ++ unitText d.unit, rfl, hc⟩

theorem begins_one : Begins (fun c => !beginsLiteral c) One := by
  refine begins_valued fun d w hd => ?_
  obtain ⟨c, u, rfl, hc⟩ := hd.exists_cons
  exact ⟨c, u, rfl, by simp only [hc, Bool.not_true]⟩

theorem reads_one :
    Rules.dimension.Reads .spaced (fun n => [ofNode n]) (Laid One) (Stops goesOn) := by
  refine reads_dimension.laid (fun w vs hw => ?_) fun x r hx hr =>
    hx.stops (fun c => goesOn_of_isSpacing) hr
  obtain ⟨d, hd, _⟩ := hw
  obtain ⟨c, u, hcons, hc⟩ := hd.exists_cons
  exact ⟨c, u, hcons, not_isSpacing_of_beginsLiteral hc⟩

theorem reads_commaOne : (Pattern.sequence (.word [',']) Rules.dimension).Reads .spaced
    (fun n => [ofNode n]) (Laid (Follows (Punctuation ',') One)) (Stops goesOn) :=
  (Pattern.reads_punctuation ',' rfl).laid_sequence reads_one (begins_punctuation (q := goesOn) rfl)
    fun _ _ _ hv _ => ⟨trivial, hv.stops_spacing_append begins_one⟩

/-- What goes on with a comma, or with what may stand behind a list. -/
theorem stops_commaOnes {q : Char → Bool} (hq : q ',' = false) {v r : List Char}
    {ds : List Dimension} (h : Laid (Repeats (Follows (Punctuation ',') One)) v ds)
    (hr : Stops q r) : Stops q (v ++ r) := by
  have hbegin : Begins q (Follows (Punctuation ',') One) := (begins_punctuation hq).follows
  cases (laid_repeats_iff hbegin).mpr h with
  | nil => exact hr
  | cons head tail =>
      rw [List.append_assoc]
      exact head.stops_append hbegin

/-- Dimensions with commas between them, up to what could be more of them. -/
theorem reads_many : (Pattern.sequence Rules.dimension
    (.repeated (.sequence (.word [',']) Rules.dimension))).Reads .spaced
    (fun n => [ofNode n]) (Laid Many) (Stops listGoesOn) := by
  have hgoesOn : ∀ c, listGoesOn c = false → goesOn c = false := fun c hc =>
    (Bool.or_eq_false_iff.mp (Bool.or_eq_false_iff.mp hc).1).1
  have hspacing : ∀ c, listGoesOn c = false → isSpacing c = false := fun c hc =>
    (Bool.or_eq_false_iff.mp hc).2
  -- Another round would begin with a comma, and no follower does.
  have hrepeated := reads_commaOne.laid_repeated (F := Stops listGoesOn)
    (begins_punctuation (q := goesOn) rfl).follows
    (fun w vs r hw => hw.stops_append (begins_punctuation (q := goesOn) rfl).follows)
    fun r hr => ⟨hr.mono hgoesOn, (Pattern.fails_word_of_stops hr rfl).sequence, hr.mono hspacing⟩
  exact reads_one.laid_sequence hrepeated begins_one fun v vs r hv hr =>
    ⟨stops_commaOnes rfl hv (hr.mono hgoesOn), stops_commaOnes rfl hv (hr.mono hspacing)⟩

/-- The values of a list: the dimensions inside of it. -/
def inList (n : Node RuleName) : List Dimension :=
  if n.name = .dimensions then n.children.map ofNode else []

theorem reads_dimensions :
    Rules.dimensions.Reads .spaced inList (Laid Many) (Stops listGoesOn) := by
  have hrule : Rules.dimensions.Reads .spaced inList _ (Stops listGoesOn) :=
    reads_many.rule (g := id) (by decide) (by decide) fun i j w nodes => List.map_eq_flatMap
  refine hrule.congr (fun w vs => ?_) fun _ hr => hr
  constructor
  · rintro ⟨_, h, rfl⟩
    exact h
  · exact fun h => ⟨vs, h, rfl⟩

/-- A list in brackets. -/
def Bracketed : List (List Char) → List Dimension → Prop :=
  Follows (Punctuation '[') (Follows Many (Punctuation ']'))

theorem reads_bracketed :
    (Rules.inOrder (.word ['[']) [Rules.dimensions, .word [']']]).Reads .spaced inList
      (Laid Bracketed) fun _ => True := by
  have hclosed := reads_dimensions.laid_sequence (Pattern.reads_punctuation ']' rfl)
    begins_one.follows fun v vs r hv _ => ⟨hv.stops_append (begins_punctuation rfl),
      hv.stops_spacing_append (begins_punctuation (q := isSpacing) rfl)⟩
  exact (Pattern.reads_punctuation '[' rfl).laid_sequence hclosed
    (begins_punctuation (q := isSpacing) rfl)
    fun v vs r hv _ => ⟨trivial, hv.stops_spacing_append begins_one.follows.follows⟩

theorem reads_list : (Pattern.choice (Rules.inOrder (.word ['[']) [Rules.dimensions, .word [']']])
    Rules.dimensions).Reads .spaced inList (Laid fun ts ds => Bracketed ts ds ∨ Many ts ds)
      fun r => True ∧ Stops listGoesOn r :=
  reads_bracketed.laid_choice reads_dimensions fun _ _ _ hw _ =>
    -- An opening bracket begins no literal.
    (Pattern.fails_word_of_stops (hw.stops_append begins_one.follows) rfl).sequence

theorem intersperse_cons {α : Type} (s x : α) (xs : List α) :
    (x :: xs).intersperse s = x :: xs.flatMap fun y => [s, y] := by
  induction xs generalizing x with
  | nil => rfl
  | cons y ys ih =>
      rw [List.intersperse_cons_cons, ih, List.flatMap_cons]
      rfl

theorem repeats_iff {ts : List (List Char)} {ds : List Dimension} :
    Repeats (Follows (Punctuation ',') One) ts ds
      ↔ ∃ texts, List.Forall₂ Spells ds texts ∧ ts = texts.flatMap fun w => [[','], w] := by
  constructor
  · intro h
    induction h with
    | nil => exact ⟨[], .nil, rfl⟩
    | cons head _ ih =>
        obtain ⟨_, ⟨w, rfl, d, hd, rfl⟩, rfl⟩ := follows_punctuation_iff.mp head
        obtain ⟨texts, htexts, rfl⟩ := ih
        exact ⟨w :: texts, .cons hd htexts, rfl⟩
  · rintro ⟨texts, htexts, rfl⟩
    induction htexts with
    | nil => exact .nil
    | @cons d w ds texts hd _ ih =>
        have hpart : Follows (Punctuation ',') One [[','], w] [d] :=
          follows_punctuation_iff.mpr ⟨[w], ⟨w, rfl, d, hd, rfl⟩, rfl⟩
        exact .cons hpart ih

/-- The tokens of a list without brackets are dimensions with commas between them. -/
theorem many_iff {ts : List (List Char)} {ds : List Dimension} :
    Many ts ds ↔ ∃ texts, texts ≠ [] ∧ List.Forall₂ Spells ds texts ∧
      ts = texts.intersperse [','] := by
  constructor
  · intro h
    obtain ⟨w, d, more, ds', hd, hmore, rfl, rfl⟩ := follows_valued_iff.mp h
    obtain ⟨texts, htexts, rfl⟩ := repeats_iff.mp hmore
    exact ⟨w :: texts, List.cons_ne_nil w texts, .cons hd htexts, (intersperse_cons _ w texts).symm⟩
  · rintro ⟨texts, hne, htexts, rfl⟩
    cases htexts with
    | nil => exact absurd rfl hne
    | @cons d w ds texts hd htexts =>
        rw [intersperse_cons]
        exact follows_valued_iff.mpr
          ⟨w, d, _, ds, hd, repeats_iff.mpr ⟨texts, htexts, rfl⟩, rfl, rfl⟩

theorem bracketed_iff {ts : List (List Char)} {ds : List Dimension} :
    Bracketed ts ds ↔ ∃ us, Many us ds ∧ ts = ['['] :: (us ++ [[']']]) := by
  constructor
  · intro h
    obtain ⟨_, hclosed, rfl⟩ := follows_punctuation_iff.mp h
    obtain ⟨us, hus, rfl⟩ := punctuation_follows_iff.mp hclosed
    exact ⟨us, hus, rfl⟩
  · rintro ⟨us, hus, rfl⟩
    exact follows_punctuation_iff.mpr ⟨_, punctuation_follows_iff.mpr ⟨us, hus, rfl⟩, rfl⟩

theorem begins_list : Begins isSpacing fun ts ds => Bracketed ts ds ∨ Many ts ds := by
  refine (begins_punctuation rfl).follows.or (begins_one.mono fun c hc => ?_).follows
  exact not_isSpacing_of_beginsLiteral ((Bool.not_eq_false' _).mp hc)

/-- The dimensions of a list are the values of its node. -/
theorem readList_eq_ok {input : List Char} {ds : List Dimension} :
    readList input = .ok ds ↔ ∃ node,
      RuleName.dimensionList.node "dimension list" input = .ok node ∧
        node.children.flatMap inList = ds := by
  -- Only the nodes of dimension lists have children that are dimensions.
  have hvalues : ∀ nodes : List (Node RuleName),
      ((nodes.filter fun c => c.name = .dimensions).flatMap Node.children).map ofNode
        = nodes.flatMap inList := by
    intro nodes
    induction nodes with
    | nil => rfl
    | cons n nodes ih =>
        rw [List.flatMap_cons, ← ih, List.filter_cons, inList]
        by_cases hn : n.name = .dimensions
        · simp only [hn, decide_true, if_true, List.flatMap_cons, List.map_append]
        · simp only [hn, decide_false, if_false, List.nil_append, Bool.false_eq_true]
  rw [readList]
  rcases RuleName.dimensionList.node "dimension list" input with error | node
  · exact ⟨fun h => (by cases h), fun ⟨_, h, _⟩ => (by cases h)⟩
  · constructor
    · intro h
      cases h
      exact ⟨node, rfl, (hvalues node.children).symm⟩
    · rintro ⟨_, h, rfl⟩
      cases h
      exact congrArg Except.ok (hvalues node.children)

/-- What is read as a list is said by tokens with spaces and tabs around them. -/
theorem readList_iff_tokens {input : List Char} {ds : List Dimension} :
    readList input = .ok ds ↔ ∃ ts, (Bracketed ts ds ∨ Many ts ds) ∧ Spaced ts input := by
  rw [readList_eq_ok]
  constructor
  · rintro ⟨node, hnode, rfl⟩
    obtain ⟨ts, ds, hts, hinput, hds⟩ := reads_list.node_sound .dimensionList begins_list
      ⟨trivial, stops_nil _⟩ (fun _ _ _ => rfl) rfl hnode
    rw [hds, List.append_nil]
    exact ⟨ts, hts, hinput⟩
  · rintro ⟨ts, hts, hinput⟩
    obtain ⟨node, hnode, hds⟩ := reads_list.node_complete .dimensionList begins_list
      ⟨trivial, stops_nil _⟩ (fun _ _ _ => rfl) rfl hts hinput
    exact ⟨node, hnode, hds.trans (List.append_nil ds)⟩

/-- **Reading a list of dimensions** succeeds with the texts of lists and with nothing else,
    and then it comes to the dimensions that the text spells, in their order. -/
theorem readList_eq_ok_iff (input : List Char) (ds : List Dimension) :
    readList input = .ok ds ↔ Listed ds input := by
  rw [readList_iff_tokens]
  constructor
  · rintro ⟨ts, hts | hts, hinput⟩
    · obtain ⟨us, hus, rfl⟩ := bracketed_iff.mp hts
      obtain ⟨texts, hne, htexts, rfl⟩ := many_iff.mp hus
      exact ⟨texts, hne, htexts, Or.inr hinput⟩
    · obtain ⟨texts, hne, htexts, rfl⟩ := many_iff.mp hts
      exact ⟨texts, hne, htexts, Or.inl hinput⟩
  · rintro ⟨texts, hne, htexts, hinput⟩
    have hmany : Many (texts.intersperse [',']) ds := many_iff.mpr ⟨texts, hne, htexts, rfl⟩
    rcases hinput with hinput | hinput
    · exact ⟨_, Or.inr hmany, hinput⟩
    · exact ⟨_, Or.inl (bracketed_iff.mpr ⟨_, hmany, rfl⟩), hinput⟩

example : (readList "5 ms".toList).isOk = false := by decide +kernel

example : ((readList "[5ms, 2]".toList).toOption.map fun ds => ds.map Dimension.unit)
    = some [some .millisecond, none] := by decide +kernel

end Dimension

end MapStyling
