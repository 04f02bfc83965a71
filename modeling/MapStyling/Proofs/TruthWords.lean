import MapStyling.Proofs.Flags
import MapStyling.Proofs.NumberReadings
import MapStyling.Session.Seeding

/-!
# Words for Truth Values

The scalars of a config that are read as truth values.

There are three words and a letter for each truth value, in small letters, in capitals, and the
words also with a capital letter in front. The words are tried in an order, and a choice does not
come back to a word that it has passed over for a longer one, nor to a longer one when it has
taken a shorter one. This does no harm: where one word begins like another, the longer one is
tried first, and it does not stand where only the shorter one does, because behind that there are
spaces and tabs or nothing.

Words begin with letters and numbers do not. So no scalar is both, and it does not matter which
of the two it is asked for first when it is made a value of an engine.

## Main definitions

* `Text.inCases`: The spellings of a word.
* `SceneNode.truthWords`: The words for a truth value.
* `Seeding.pushNumberFirst`: A scalar that is asked for a number first.

## Theorems

* `Grammar.apart_of_stops`: Words are told apart by themselves alone.
* `Grammar.reads_truthWords`: The rules read their words.
* `SceneNode.truthOf?_eq_some_iff`: What is read as a truth value, and as which one.
* `SceneNode.truths_and_numbers`: Truth values, numbers, and what is made of them.
-/

namespace MapStyling

namespace Text

/-- A word with a capital letter in front. -/
def capitalized : List Char → List Char
  | [] => []
  | c :: w => c.toUpper :: w

/-- A word in small letters, with a capital letter in front, and in capitals. -/
def inCases (w : String) : List (List Char) :=
  [w.toList, capitalized w.toList, w.toList.map Char.toUpper]

end Text

namespace SceneNode

/-- The words for a truth value, and the letters. -/
def truthWords : Bool → List (List Char)
  | true => ["true", "yes", "on"].flatMap Text.inCases ++ [['y'], ['Y']]
  | false => ["false", "no", "off"].flatMap Text.inCases ++ [['n'], ['N']]

end SceneNode

namespace Grammar

/-- A word that is looked for is found within another one, or not at all, if what is behind that
    one cannot be part of a word. -/
theorem isPrefixOf_append_of_stops {q : Char → Bool} {t r : List Char} (w : List Char)
    (ht : ∀ c ∈ t, q c = true) (h : Stops q r) : t.isPrefixOf (w ++ r) = t.isPrefixOf w := by
  induction w generalizing t with
  | nil =>
      cases t with
      | nil => rfl
      | cons c t => exact Pattern.isPrefixOf_of_stops h (ht c List.mem_cons_self)
  | cons d w ih =>
      cases t with
      | nil => rfl
      | cons c t =>
          rw [List.cons_append, List.isPrefixOf_cons_cons, List.isPrefixOf_cons_cons,
            ih fun e he => ht e (List.mem_cons_of_mem c he)]

/-- Words that are told apart where a text ends are told apart in front of everything that cannot
    be part of a word. -/
theorem apart_of_stops {q : Char → Bool} {words : List String} {r : List Char}
    (hwords : ∀ w ∈ wordsOf words, ∀ c ∈ w, q c = true) (hapart : Apart words [])
    (h : Stops q r) : Apart words r := by
  refine hapart.imp_of_mem fun {earlier later} hearlier _ hne => ?_
  rw [isPrefixOf_append_of_stops _ (hwords _ (List.mem_map_of_mem hearlier)) h]
  rwa [List.append_nil] at hne

/-- The words that a rule tries for a truth value, in this order. -/
def words : Bool → List String
  | true => ["true", "True", "TRUE", "yes", "Yes", "YES", "on", "On", "ON", "y", "Y"]
  | false => ["false", "False", "FALSE", "no", "No", "NO", "off", "Off", "OFF", "n", "N"]

theorem map_words (b : Bool) : (words b).map String.toList = SceneNode.truthWords b := by
  cases b <;> rfl

theorem mem_words {b : Bool} {w : List Char} :
    w ∈ wordsOf (words b) ↔ w ∈ SceneNode.truthWords b := by
  rw [mem_wordsOf, map_words]

theorem isAlpha_of_mem {b : Bool} : ∀ w ∈ wordsOf (words b), ∀ c ∈ w, c.isAlpha = true := by
  intro w hw c hc
  have hall : (SceneNode.truthWords b).all (fun w => w.all Char.isAlpha) = true := by
    cases b <;> decide
  rw [mem_words] at hw
  exact List.all_eq_true.mp (List.all_eq_true.mp hall w hw) c hc

theorem exists_cons_of_mem {b : Bool} {w : List Char} (hw : w ∈ wordsOf (words b)) :
    ∃ c u, w = c :: u ∧ c.isAlpha = true := by
  cases w with
  | nil => cases b <;> exact absurd (mem_words.mp hw) (by decide)
  | cons c u => exact ⟨c, u, rfl, isAlpha_of_mem _ hw c List.mem_cons_self⟩

/-- Where one word begins like another, the longer one comes first. -/
theorem apart_words (b : Bool) : Apart (words b) [] := by
  unfold Apart
  cases b <;> decide

/-- No word for what is true begins one for what is not. -/
theorem isPrefixOf_words {v w : List Char} (hv : v ∈ wordsOf (words true))
    (hw : w ∈ wordsOf (words false)) : v.isPrefixOf w = false := by
  have hall : (SceneNode.truthWords true).all (fun v => (SceneNode.truthWords false).all
      fun w => !v.isPrefixOf w) = true := by decide
  have hne := List.all_eq_true.mp (List.all_eq_true.mp hall v (mem_words.mp hv)) w (mem_words.mp hw)
  rwa [Bool.not_eq_true'] at hne

theorem not_isSpacing_of_isAlpha {c : Char} (h : c.isAlpha = true) : isSpacing c = false := by
  refine Bool.eq_false_iff.mpr fun hc => ?_
  rcases isSpacing_iff.mp hc with rfl | rfl <;> exact absurd h (by decide)

/-- No letter comes behind spaces and tabs if none comes without them. -/
theorem stops_isAlpha_append {x r : List Char} (hx : Gap .spaced x) (hr : Stops Char.isAlpha r) :
    Stops Char.isAlpha (x ++ r) :=
  hx.stops (fun _ hc => Bool.eq_false_iff.mpr fun h =>
    Bool.eq_false_iff.mp (not_isSpacing_of_isAlpha h) hc) hr

/-- The truth value that a node says, and nothing for the end of the text. -/
def truthOf (n : Node RuleName) : Option Bool :=
  match n.name with
  | .trueWord => some true
  | .falseWord => some false
  | _ => none

/-- The tokens of a truth value: one of its words. -/
def Truth (ts : List (List Char)) (vs : List (Option Bool)) : Prop :=
  Worded (words true) (some true) ts vs ∨ Worded (words false) (some false) ts vs

theorem truth_iff {ts : List (List Char)} {vs : List (Option Bool)} :
    Truth ts vs ↔ ∃ b, ∃ w ∈ SceneNode.truthWords b, ts = [w] ∧ vs = [some b] := by
  constructor
  · rintro (⟨w, rfl, hw, rfl⟩ | ⟨w, rfl, hw, rfl⟩)
    · exact ⟨true, w, mem_words.mp hw, rfl, rfl⟩
    · exact ⟨false, w, mem_words.mp hw, rfl, rfl⟩
  · rintro ⟨b, w, hw, rfl, rfl⟩
    cases b with
    | true => exact Or.inl ⟨w, rfl, mem_words.mpr hw, rfl⟩
    | false => exact Or.inr ⟨w, rfl, mem_words.mpr hw, rfl⟩

theorem begins_words (b : Bool) : Begins isSpacing (Worded (words b) (some b)) :=
  begins_worded (fun w hw => by
    obtain ⟨c, u, rfl, hc⟩ := exists_cons_of_mem hw
    exact ⟨c, u, rfl, not_isSpacing_of_isAlpha hc⟩) _

/-- The words for one truth value, in front of what cannot be part of a word. -/
theorem reads_truthWords {name : RuleName} (b : Bool) {w : String} {ws : List String}
    (hwords : words b = w :: ws) (hview : ∀ i j t, [truthOf ⟨name, i, j, t, []⟩] = [some b]) :
    (Pattern.rule name .token (Rules.oneOf w ws)).Reads .spaced (fun n => [truthOf n])
      (Laid (Worded (words b) (some b))) (Stops Char.isAlpha) := by
  have hbegins := begins_words b
  have hapart : ∀ r, Stops Char.isAlpha r → Apart (words b) r := fun r =>
    apart_of_stops isAlpha_of_mem (apart_words b)
  rw [hwords] at hbegins hapart ⊢
  exact reads_words hview hbegins fun x r hx hr => hapart _ (stops_isAlpha_append hx hr)

/-- No word of the first rule stands where one of the second does. -/
theorem reads_truth : (Pattern.choice Rules.trueWord Rules.falseWord).Reads .spaced
    (fun n => [truthOf n]) (Laid Truth) fun r => Stops Char.isAlpha r ∧ Stops Char.isAlpha r := by
  refine (reads_truthWords true rfl fun _ _ _ => rfl).laid_choice
    (reads_truthWords false rfl fun _ _ _ => rfl) fun w vs r hw hr => ?_
  obtain ⟨_, ⟨w', rfl, hw', _⟩, hs, hstop⟩ := hw
  obtain ⟨_, _, x, _, _, rfl, hx⟩ := hs.exists_rest hstop
  cases hx with
  | nil hx =>
      have hrest := stops_isAlpha_append hx hr
      refine Pattern.Fails.rule (fails_oneOf fun v hv => ?_)
      have hmem : v.toList ∈ wordsOf (words true) := List.mem_map_of_mem hv
      rw [List.append_assoc, isPrefixOf_append_of_stops _ (isAlpha_of_mem _ hmem) hrest]
      exact isPrefixOf_words hmem hw'

theorem truthOf_endOfInput (i j : Nat) (w : List Char) :
    [truthOf ⟨.endOfInput, i, j, w, []⟩] = [none] := rfl

/-- A token without spaces and tabs is what is left when they are stripped. -/
theorem spaced_singleton_iff {w s : List Char} (hne : w ≠ []) (hw : ∀ c ∈ w, isSpacing c = false) :
    Spaced [w] s ↔ Text.strip isSpacing s = w := by
  have hstop : Stops isSpacing w := fun c hc => hw c (List.mem_of_head? hc)
  have hstop' : Stops isSpacing w.reverse := fun c hc =>
    hw c (List.mem_reverse.mp (List.mem_of_head? hc))
  constructor
  · intro h
    cases h with
    | cons hx _ hy =>
        cases hy with
        | nil hy => exact Text.strip_of_stops hx.spacing hy.spacing hstop hstop'
  · intro h
    obtain ⟨x, y, hs, hx, hy⟩ := Text.exists_strip isSpacing s
    obtain ⟨c, u, rfl⟩ := List.exists_cons_of_ne_nil hne
    rw [hs, h]
    exact .cons (gap_spaced hx) (stops_cons.mp hstop) (.nil (gap_spaced hy))

/-- The first character behind the blanks is the first one of a token. -/
theorem Spaced.head?_dropWhile {w s : List Char} {ws : List (List Char)} (h : Spaced (w :: ws) s) :
    (s.dropWhile isSpacing).head? = w.head? := by
  cases h with
  | cons hx hfirst _ =>
      rw [List.cons_append, dropWhile_append_of_stops hx.spacing (stops_cons.mpr hfirst)]
      rfl

theorem not_isAlpha_of_beginsLiteral {c : Char} (h : beginsLiteral c = true) :
    c.isAlpha = false := by
  simp only [beginsLiteral, mantissaGoesOn, Bool.or_eq_true, decide_eq_true_eq] at h
  rcases h with ((h | rfl) | rfl) | rfl
  · have hdigit : 48 ≤ c.val ∧ c.val ≤ 57 := by simpa [Char.isDigit] using h
    simp only [UInt32.le_iff_toNat_le] at hdigit
    rw [Literal.isAlpha_eq]
    simp only [UInt32.le_iff_toNat_le, Bool.or_eq_false_iff, Bool.and_eq_false_iff,
      decide_eq_false_iff_not]
    change ¬(65 ≤ c.val.toNat ∧ c.val.toNat ≤ 90) ∧ (¬97 ≤ c.val.toNat ∨ ¬c.val.toNat ≤ 122)
    change 48 ≤ c.val.toNat ∧ c.val.toNat ≤ 57 at hdigit
    omega
  · rfl
  · rfl
  · rfl

end Grammar

open Grammar

namespace SceneNode

/-- The node of a truth value has the one of its word in it, and then the end of the text. -/
theorem head?_trueWord {node : Node RuleName} {b : Bool}
    (h : node.children.flatMap (fun n => [truthOf n]) = [some b] ++ [none]) :
    (node.children.head?.map fun word => decide (word.name = .trueWord)) = some b := by
  rw [← List.map_eq_flatMap] at h
  obtain ⟨c, more, hchildren, hfirst, _⟩ := List.map_eq_cons_iff.mp h
  rw [hchildren, List.head?_cons, Option.map_some]
  rw [truthOf] at hfirst
  split at hfirst
  · next hname =>
    cases hfirst
    rw [hname]
    rfl
  · next hname =>
    cases hfirst
    rw [hname]
    rfl
  · cases hfirst

/-- A truth value is read where one of its words stands among spaces and tabs. -/
theorem truthOf?_eq_some_iff {s : String} {b : Bool} :
    truthOf? s = some b ↔ ∃ w ∈ truthWords b, Spaced [w] s.toList := by
  have hfollow : Stops Char.isAlpha [] ∧ Stops Char.isAlpha [] := ⟨stops_nil _, stops_nil _⟩
  have hbegins : Begins isSpacing Truth := (begins_words true).or (begins_words false)
  constructor
  · -- A match is the whole of the text, so the one node stands for the word.
    intro h
    unfold truthOf? at h
    split at h
    · next node more hparse =>
      obtain ⟨children, last, _, hnodes⟩ := Pattern.parse_whole_iff.mp hparse
      obtain ⟨rfl, rfl⟩ := List.cons.inj hnodes
      have hnode := (@Pattern.node_eq_ok_iff .yamlBool _ rfl "" _ _).mpr hparse
      obtain ⟨ts, vs, hts, hs, hvs⟩ := reads_truth.node_sound .yamlBool hbegins hfollow
        truthOf_endOfInput rfl hnode
      obtain ⟨b', w, hw, rfl, rfl⟩ := truth_iff.mp hts
      rw [head?_trueWord hvs] at h
      cases h
      exact ⟨w, hw, hs⟩
    · cases h
  · rintro ⟨w, hw, hs⟩
    obtain ⟨node, hnode, hvs⟩ : ∃ node, RuleName.yamlBool.node "" s.toList = .ok node ∧
        node.children.flatMap (fun n => [truthOf n]) = [some b] ++ [none] :=
      reads_truth.node_complete .yamlBool hbegins hfollow truthOf_endOfInput rfl
        (truth_iff.mpr ⟨b, w, hw, rfl, rfl⟩) hs
    have hparse : RuleName.yamlBool.pattern.parse s.toList = .ok [node] :=
      (Pattern.node_eq_ok_iff rfl).mp hnode
    unfold truthOf?
    rw [hparse]
    exact head?_trueWord hvs

theorem truthOf?_eq_some_iff_strip {s : String} {b : Bool} :
    truthOf? s = some b ↔ Text.strip isSpacing s.toList ∈ truthWords b := by
  have hword : ∀ w ∈ truthWords b, Spaced [w] s.toList ↔ Text.strip isSpacing s.toList = w := by
    intro w hw
    obtain ⟨c, u, hcons, _⟩ := exists_cons_of_mem (mem_words.mpr hw)
    refine spaced_singleton_iff (by rw [hcons]; exact List.cons_ne_nil c u) fun d hd => ?_
    exact not_isSpacing_of_isAlpha (isAlpha_of_mem w (mem_words.mpr hw) d hd)
  rw [truthOf?_eq_some_iff]
  constructor
  · rintro ⟨w, hw, hs⟩
    rwa [(hword w hw).mp hs]
  · intro h
    exact ⟨_, h, (hword _ h).mpr rfl⟩

/-- A word for a truth value begins with a letter, and a number does not. -/
theorem numberOf?_of_truthOf? {s : String} {b : Bool} (h : truthOf? s = some b) :
    numberOf? s = none := by
  obtain ⟨w, hw, hs⟩ := truthOf?_eq_some_iff.mp h
  refine numberOf?_of_not_literal fun v hv hs' => ?_
  obtain ⟨c, u, rfl, hc⟩ := exists_cons_of_mem (mem_words.mpr hw)
  obtain ⟨d, t, rfl, hd⟩ := exists_cons_of_mem_literals hv
  have hfirst : some c = some d := hs.head?_dropWhile.symm.trans hs'.head?_dropWhile
  rw [Option.some.inj hfirst, not_isAlpha_of_beginsLiteral hd] at hc
  cases hc

end SceneNode

namespace Seeding

/-- A scalar that is asked for a number before it is asked for a truth value. -/
def pushNumberFirst {σ : Type} [Engine σ] (text : String) : StateM σ Handle := do
  if "function".toList.isPrefixOf text.toList then
    match ← Engine.pushFunction text with
    | .ok h => return h
    | .error _ => Engine.pushText text
  else match SceneNode.numberOf? text with
    | some n => Engine.pushNumber n
    | none => match SceneNode.truthOf? text with
      | some b => Engine.pushBoolean b
      | none => Engine.pushText text

theorem pushScalar_eq_pushNumberFirst {σ : Type} [Engine σ] (text : String) :
    (pushScalar text : StateM σ Handle) = pushNumberFirst text := by
  rw [pushScalar, pushNumberFirst]
  rcases htruth : SceneNode.truthOf? text with _ | b
  · rfl
  · rcases hnumber : SceneNode.numberOf? text with _ | n
    · rfl
    · rw [SceneNode.numberOf?_of_truthOf? htruth] at hnumber
      cases hnumber

end Seeding

/-- A scalar is read as a truth value if and only if it is one of its words when spaces and tabs
    are stripped from its ends. No scalar is read both as a truth value and as a number, and the
    value that it becomes in an engine is the same whichever of the two is tried first. -/
theorem SceneNode.truths_and_numbers (s : String) :
    (∀ b : Bool, (scalar s).truth? = some b
      ↔ Text.strip Grammar.isSpacing s.toList ∈ truthWords b) ∧
    ((scalar s).truth? = none ∨ (scalar s).number? = none) ∧
    ∀ {σ : Type} [Engine σ],
      (Seeding.pushScalar s : StateM σ Handle) = Seeding.pushNumberFirst s := by
  rw [truth?_scalar, number?_scalar]
  refine ⟨fun b => truthOf?_eq_some_iff_strip, ?_, Seeding.pushScalar_eq_pushNumberFirst s⟩
  rcases htruth : truthOf? s with _ | b
  · exact Or.inl rfl
  · exact Or.inr (numberOf?_of_truthOf? htruth)

example : (SceneNode.scalar " Yes\t").truth? = some true := by decide

example : (SceneNode.scalar "yes\n").truth? = none := by decide

end MapStyling
