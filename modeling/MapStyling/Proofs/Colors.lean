import MapStyling.Proofs.Grammar.Numbers
import MapStyling.Proofs.Grammar.Tokens
import MapStyling.Proofs.Trimmed

/-!
# Texts of Colors

The texts that are read as colors.

A text is trimmed first. What is left is digits behind a number sign, or numbers in the
parentheses of `rgb` or `rgba`, with spaces and tabs around the tokens and nowhere else.

Reading goes in two steps that were written apart. The rules take any number of digits, and
only the lengths of the short and of the long form are let through behind them. The rules
also see to it that there are three numbers or four, and what takes the numbers goes by
their positions. Of the two functions `rgba` is tried first. It does not match what is
spelled `rgb`, because the fourth letter is missing, so the second one gets its turn.

## Main definitions

* `Color.byte`: Two digits as a byte.
* `Color.OfDigits`: Colors in three, four, six or eight digits.
* `Color.Spelled`: The texts of a color.

## Theorems

* `Color.read_eq_ok_iff`: What is read as a color, and as which one.
-/

namespace MapStyling

open Grammar

namespace Color

open Literal (literals literal?)

/-- Two digits as a byte. -/
def byte (h l : Char) : UInt8 := .ofNat (Text.hexNumber [h, l])

/-- Colors in digits: a digit for a channel stands for two of itself, and a color without
    alpha has all of it. -/
inductive OfDigits : List Char → Color → Prop
  | three (r g b : Char) : OfDigits [r, g, b] (rgba (byte r r) (byte g g) (byte b b) 255)
  | four (r g b a : Char) :
      OfDigits [r, g, b, a] (rgba (byte r r) (byte g g) (byte b b) (byte a a))
  | six (r r' g g' b b' : Char) :
      OfDigits [r, r', g, g', b, b'] (rgba (byte r r') (byte g g') (byte b b') 255)
  | eight (r r' g g' b b' a a' : Char) :
      OfDigits [r, r', g, g', b, b', a, a']
        (rgba (byte r r') (byte g g') (byte b b') (byte a a'))

/-- Texts of number literals and their values. -/
def Spell (values : List Float) (texts : List (List Char)) : Prop :=
  List.Forall₂ (fun v w => w ∈ literals ∧ literal? w = some v) values texts

/-- The tokens of a function with arguments. -/
def call (keyword : List Char) (texts : List (List Char)) : List (List Char) :=
  keyword :: ['('] :: (texts.intersperse [','] ++ [[')']])

/-- The texts of a color, trimmed: digits behind a number sign, or a function of three
    channels up to 255, the other one with an alpha up to one behind them. -/
inductive Spelled : List Char → Color → Prop
  | digits {ds : List Char} {c : Color} (hexadecimal : ∀ d ∈ ds, Text.isHexDigit d = true)
      (color : OfDigits ds c) : Spelled ('#' :: ds) c
  | rgb {keyword input : List Char} {texts : List (List Char)} {r g b : Float}
      (spelling : keyword.map Char.toLower = "rgb".toList) (values : Spell [r, g, b] texts)
      (tokens : Spaced (call keyword texts) input) :
      Spelled input (Channels.toColor ⟨r / 255.0, g / 255.0, b / 255.0, 1.0⟩)
  | rgba {keyword input : List Char} {texts : List (List Char)} {r g b a : Float}
      (spelling : keyword.map Char.toLower = "rgba".toList) (values : Spell [r, g, b, a] texts)
      (tokens : Spaced (call keyword texts) input) :
      Spelled input (Channels.toColor ⟨r / 255.0, g / 255.0, b / 255.0, a⟩)

theorem double_eq (h l : Char) : double h l = byte h l := by
  have hnumber : Text.hexNumber [h, l] = Text.hexDigitValue h * 16 + Text.hexDigitValue l := by
    simp only [Text.hexNumber, List.foldl_cons, List.foldl_nil]
    omega
  rw [byte, hnumber, UInt8.ofNat_add, UInt8.ofNat_mul]
  rfl

theorem single_eq (d : Char) : single d = byte d d := by
  have hnumber : Text.hexNumber [d, d] = Text.hexDigitValue d * 0x11 := by
    simp only [Text.hexNumber, List.foldl_cons, List.foldl_nil]
    omega
  rw [byte, hnumber, UInt8.ofNat_mul]
  rfl

/-- Only four lengths are colors. -/
theorem ofDigits?_eq_some_iff {ds : List Char} {c : Color} :
    ofDigits? ds = some c ↔ OfDigits ds c := by
  constructor
  · intro h
    -- There is one case for each length that has a color.
    rw [ofDigits?.eq_def] at h
    split at h
    · cases h
      rw [single_eq, single_eq, single_eq]
      exact .three _ _ _
    · cases h
      rw [single_eq, single_eq, single_eq, single_eq]
      exact .four _ _ _ _
    · cases h
      rw [double_eq, double_eq, double_eq]
      exact .six _ _ _ _ _ _
    · cases h
      rw [double_eq, double_eq, double_eq, double_eq]
      exact .eight _ _ _ _ _ _ _ _
    · cases h
  · intro h
    cases h with
    | three => simp only [ofDigits?, single_eq]
    | four => simp only [ofDigits?, single_eq]
    | six => simp only [ofDigits?, double_eq]
    | eight => simp only [ofDigits?, double_eq]

/-- A number as a token. -/
def Number : List (List Char) → List Float → Prop :=
  Valued fun v w => w ∈ literals ∧ literal? w = some v

/-- Numbers with commas between them, one more than is said, and a parenthesis behind. -/
def Arguments : Nat → List (List Char) → List Float → Prop
  | 0 => Follows Number (Punctuation ')')
  | n + 1 => Follows Number (Follows (Punctuation ',') (Arguments n))

/-- The patterns behind the first of several arguments. -/
def closing : Nat → List Rules.Rule
  | 0 => [.word [')']]
  | n + 1 => .word [','] :: Rules.number :: closing n

/-- A keyword as a token. -/
def Keyword (t : List Char) (ts : List (List Char)) (vs : List Float) : Prop :=
  ∃ w, ts = [w] ∧ w ∈ spellingsOf t ∧ vs = []

/-- A function with arguments, one more than is said. -/
def Call (t : List Char) (n : Nat) : List (List Char) → List Float → Prop :=
  Follows (Keyword t) (Follows (Punctuation '(') (Arguments n))

theorem begins_number : Begins (fun c => !beginsLiteral c) Number := by
  refine begins_valued fun v w hw => ?_
  obtain ⟨c, u, rfl, hc⟩ := exists_cons_of_mem_literals hw.1
  exact ⟨c, u, rfl, by simp only [hc, Bool.not_true]⟩

theorem begins_arguments (n : Nat) : Begins (fun c => !beginsLiteral c) (Arguments n) := by
  cases n with
  | zero => exact begins_number.follows
  | succ n => exact begins_number.follows

theorem begins_keyword {q : Char → Bool} (t : List Char)
    (hq : ∀ c, c.toLower = 'r' → q c = false) : Begins q (Keyword ('r' :: t)) := by
  rintro _ vs ⟨w, rfl, hw, _⟩
  obtain ⟨c, u, rfl, hc, _⟩ := List.map_eq_cons_iff.mp (mem_spellingsOf.mp hw)
  exact ⟨c, u, [], rfl, hq c hc⟩

theorem not_isSpacing_of_toLower {c : Char} (h : c.toLower = 'r') : isSpacing c = false := by
  refine Bool.eq_false_iff.mpr fun hc => ?_
  rcases isSpacing_iff.mp hc with rfl | rfl
  · exact absurd h (by decide)
  · exact absurd h (by decide)

theorem reads_number : Rules.number.Reads .spaced (fun n => [n.number]) (Laid Number)
    (Stops numberGoesOn) := by
  have hrule : Rules.number.Reads .spaced (fun n => [n.number]) _ (Stops numberGoesOn) :=
    readsToken_number.rule (g := fun w => [(literal? w).getD Double.nan]) (by decide)
      fun _ _ _ => rfl
  -- A literal always has a value, so nothing is read in place of one.
  have hvalue : ∀ (w : List Char) (vs : List Float),
      w ∈ literals ∧ vs = [(literal? w).getD Double.nan]
        ↔ ∃ v, (w ∈ literals ∧ literal? w = some v) ∧ vs = [v] := by
    intro w vs
    constructor
    · rintro ⟨hw, rfl⟩
      obtain ⟨v, hv⟩ := Option.isSome_iff_exists.mp (Literal.isSome_literal? hw)
      exact ⟨v, ⟨hw, hv⟩, by rw [hv]; rfl⟩
    · rintro ⟨v, ⟨hw, hv⟩, rfl⟩
      exact ⟨hw, by rw [hv]; rfl⟩
  refine (hrule.congr hvalue fun _ hr => hr).laid (fun w vs hw => ?_) fun x r hx hr =>
    hx.stops (fun c => not_numberGoesOn_of_isSpacing) hr
  obtain ⟨v, hv, _⟩ := hw
  obtain ⟨c, u, hcons, hc⟩ := exists_cons_of_mem_literals hv.1
  exact ⟨c, u, hcons, not_isSpacing_of_beginsLiteral hc⟩

theorem reads_arguments (n : Nat) : (Rules.inOrder Rules.number (closing n)).Reads .spaced
    (fun n => [n.number]) (Laid (Arguments n)) fun _ => True := by
  induction n with
  | zero =>
      exact reads_number.laid_sequence (Pattern.reads_punctuation ')' rfl) begins_number
        fun v vs r hv _ => ⟨hv.stops_append (begins_punctuation rfl),
          hv.stops_spacing_append (begins_punctuation (q := isSpacing) rfl)⟩
  | succ n ih =>
      have hmore := (Pattern.reads_punctuation ',' rfl).laid_sequence ih
        (begins_punctuation (q := isSpacing) rfl)
        fun v vs r hv _ => ⟨trivial, hv.stops_spacing_append (begins_arguments n)⟩
      exact reads_number.laid_sequence hmore begins_number fun v vs r hv _ =>
        ⟨hv.stops_append (begins_punctuation rfl).follows,
          hv.stops_spacing_append (begins_punctuation (q := isSpacing) rfl).follows⟩

theorem reads_call (t : List Char) (n : Nat) :
    (Rules.inOrder (.anyCase ('r' :: t)) (.word ['('] :: Rules.number :: closing n)).Reads .spaced
      (fun n => [n.number]) (Laid (Call ('r' :: t) n)) fun _ => True := by
  have hopened := (Pattern.reads_punctuation '(' rfl).laid_sequence (reads_arguments n)
    (begins_punctuation (q := isSpacing) rfl)
    fun v vs r hv _ => ⟨trivial, hv.stops_spacing_append (begins_arguments n)⟩
  have hkeyword : Pattern.Reads (ρ := RuleName) (.anyCase ('r' :: t)) .spaced (fun n => [n.number])
      (Laid (Keyword ('r' :: t))) fun _ => True := by
    refine (Pattern.reads_anyCase ('r' :: t)).laid (fun w vs hw => ?_) fun _ _ _ _ => trivial
    obtain ⟨c, u, rfl, hc, _⟩ := List.map_eq_cons_iff.mp (mem_spellingsOf.mp hw.1)
    exact ⟨c, u, rfl, not_isSpacing_of_toLower hc⟩
  exact hkeyword.laid_sequence hopened (begins_keyword t fun c => not_isSpacing_of_toLower)
    fun v vs r hv _ =>
      ⟨trivial, hv.stops_spacing_append (begins_punctuation (q := isSpacing) rfl).follows⟩

/-- What a text of a color says. -/
inductive Body
  | digits (ds : List Char)
  | numbers (values : List Float)

/-- The color that is said, if it is one. -/
def Body.color? : Body → Option Color
  | digits ds => ofDigits? ds
  | numbers values => (channels? values).map Channels.toColor

/-- What a node of a color says, and nothing for the end of the text. -/
def body (n : Node RuleName) : List (Option Body) :=
  [match n.name with
    | .endOfInput => none
    | .hexColor => some (.digits (n.text.drop 1))
    | _ => some (.numbers (n.children.map Node.number))]

/-- Digits behind a number sign as a token. -/
def Hex (ts : List (List Char)) (vs : List (Option Body)) : Prop :=
  ∃ w, ts = [w] ∧ ∃ ds ∈ someOf Text.isHexDigit, w = '#' :: ds ∧ vs = [some (.digits ds)]

/-- A function with arguments, as a color. -/
def Called (t : List Char) (n : Nat) (ts : List (List Char)) (vs : List (Option Body)) : Prop :=
  ∃ values, Call t n ts values ∧ vs = [some (.numbers values)]

theorem begins_hex {q : Char → Bool} (hq : q '#' = false) : Begins q Hex := by
  rintro _ vs ⟨_, rfl, ds, _, rfl, _⟩
  exact ⟨'#', ds, [], rfl, hq⟩

theorem begins_called {q : Char → Bool} (t : List Char) (n : Nat)
    (hq : ∀ c, c.toLower = 'r' → q c = false) : Begins q (Called ('r' :: t) n) := by
  rintro ts vs ⟨values, hcall, _⟩
  exact (begins_keyword t hq).follows hcall

theorem reads_hexColor :
    Rules.hexColor.Reads .spaced body (Laid Hex) (Stops Text.isHexDigit) := by
  have htoken : Pattern.ReadsToken (ρ := RuleName) (.sequence (.word ['#'])
      (.oneOrMore Text.isHexDigit)) ({['#']} * someOf Text.isHexDigit) (Stops Text.isHexDigit) :=
    (Pattern.readsToken_word _).sequence (Pattern.readsToken_oneOrMore _) fun _ _ _ _ => trivial
  have hrule : Rules.hexColor.Reads .spaced body _ (Stops Text.isHexDigit) :=
    htoken.rule (g := fun w => [some (.digits (w.drop 1))]) (by decide) fun _ _ _ => rfl
  have hdigits : ∀ (w : List Char) (vs : List (Option Body)),
      w ∈ ({['#']} * someOf Text.isHexDigit : Language Char) ∧ vs = [some (.digits (w.drop 1))]
        ↔ ∃ ds ∈ someOf Text.isHexDigit, w = '#' :: ds ∧ vs = [some (.digits ds)] := by
    intro w vs
    rw [mem_singleton_mul]
    constructor
    · rintro ⟨⟨ds, hds, rfl⟩, rfl⟩
      exact ⟨ds, hds, rfl, rfl⟩
    · rintro ⟨ds, hds, rfl, rfl⟩
      exact ⟨⟨ds, hds, rfl⟩, rfl⟩
  refine (hrule.congr hdigits fun _ hr => hr).laid (fun w vs hw => ?_) fun x r hx hr =>
    hx.stops (fun c hc => ?_) hr
  · obtain ⟨ds, _, rfl, _⟩ := hw
    exact ⟨'#', ds, rfl, rfl⟩
  · rcases isSpacing_iff.mp hc with rfl | rfl <;> rfl

theorem reads_called {name : RuleName} (t : List Char) (n : Nat)
    (hname : ∀ i j w nodes,
      body ⟨name, i, j, w, nodes⟩ = [some (.numbers (nodes.map Node.number))]) :
    (Pattern.rule name .spaced (Rules.inOrder (.anyCase ('r' :: t))
      (.word ['('] :: Rules.number :: closing n))).Reads .spaced body (Laid (Called ('r' :: t) n))
        fun _ => True := by
  have hrule : (Pattern.rule name .spaced (Rules.inOrder (.anyCase ('r' :: t))
      (.word ['('] :: Rules.number :: closing n))).Reads .spaced body _ fun _ => True :=
    (reads_call t n).rule (g := fun values => [some (.numbers values)]) (by decide) (by decide)
      fun i j w nodes => by rw [hname, List.map_eq_flatMap]
  refine hrule.congr (fun w vs => ?_) fun _ hr => hr
  constructor
  · rintro ⟨values, ⟨ts, hts, hw⟩, hvs⟩
    exact ⟨ts, ⟨values, hts, hvs⟩, hw⟩
  · rintro ⟨ts, ⟨values, hts, hvs⟩, hw⟩
    exact ⟨values, ⟨ts, hts, hw⟩, hvs⟩

/-- The longer keyword is not there where the shorter one is followed by a parenthesis. -/
theorem fails_rgba {w r : List Char} {vs : List (Option Body)}
    (h : Laid (Called "rgb".toList 2) w vs) : Rules.rgbaColor.Fails .spaced (w ++ r) := by
  obtain ⟨_, ⟨values, hcall, _⟩, hs, hstop⟩ := h
  obtain ⟨_, _, _, _, ⟨k, rfl, hk, rfl⟩, hopened, rfl, rfl⟩ := hcall
  obtain ⟨ts, _, rfl⟩ := follows_punctuation_iff.mp hopened
  obtain ⟨_, _, s, _, _, rfl, htail⟩ := hs.exists_rest hstop
  -- The letter behind the keyword could only be a blank or the parenthesis.
  have hletter : Stops (fun c => c.toLower = 'a') (s ++ r) := by
    cases htail with
    | cons hgap _ _ =>
        rw [List.append_assoc]
        refine hgap.stops (fun c hc => ?_) (stops_cons.mpr rfl)
        rcases isSpacing_iff.mp hc with rfl | rfl <;> rfl
  refine Pattern.Fails.rule (Pattern.fails_anyCase fun v hv hfirst => ?_).sequence
  obtain ⟨u, hu⟩ := hfirst
  have hmap := congrArg (List.map Char.toLower) hu
  rw [List.map_append, mem_spellingsOf.mp hv, List.append_assoc, List.map_append,
    mem_spellingsOf.mp hk] at hmap
  have hrest : "rgb".toList ++ 'a' :: u.map Char.toLower
      = "rgb".toList ++ (s ++ r).map Char.toLower := hmap
  obtain ⟨c, _, heq, hc, _⟩ := List.map_eq_cons_iff.mp (List.append_cancel_left hrest).symm
  rw [heq] at hletter
  exact absurd hc (of_decide_eq_false (stops_cons.mp hletter))

/-- What the tokens of a color say. -/
def Said (ts : List (List Char)) (vs : List (Option Body)) : Prop :=
  Hex ts vs ∨ Called "rgba".toList 3 ts vs ∨ Called "rgb".toList 2 ts vs

theorem begins_said : Begins isSpacing Said :=
  (begins_hex rfl).or ((begins_called _ 3 fun _ => not_isSpacing_of_toLower).or
    (begins_called _ 2 fun _ => not_isSpacing_of_toLower))

theorem reads_color : (Pattern.choice Rules.hexColor
    (.choice Rules.rgbaColor Rules.rgbColor)).Reads .spaced body (Laid Said)
      fun r => Stops Text.isHexDigit r ∧ True ∧ True := by
  have hnosign : ∀ c : Char, c.toLower = 'r' → (c = '#' : Bool) = false := by
    rintro c hc
    refine decide_eq_false ?_
    rintro rfl
    exact absurd hc (by decide)
  have hrgba : Rules.rgbaColor.Reads .spaced body (Laid (Called "rgba".toList 3)) fun _ => True :=
    reads_called "gba".toList 3 fun _ _ _ _ => rfl
  have hrgb : Rules.rgbColor.Reads .spaced body (Laid (Called "rgb".toList 2)) fun _ => True :=
    reads_called "gb".toList 2 fun _ _ _ _ => rfl
  have hbegin := (begins_called "gba".toList 3 hnosign).or (begins_called "gb".toList 2 hnosign)
  exact reads_hexColor.laid_choice (hrgba.laid_choice hrgb fun w vs r hw _ => fails_rgba hw)
    fun w vs r hw _ => Pattern.Fails.rule
      (Pattern.fails_word_of_stops (hw.stops_append hbegin) rfl).sequence

theorem arguments_iff {n : Nat} {ts : List (List Char)} {vs : List Float} :
    Arguments n ts vs ↔ vs.length = n + 1 ∧ ∃ texts, Spell vs texts ∧
      ts = texts.intersperse [','] ++ [[')']] := by
  induction n generalizing ts vs with
  | zero =>
      constructor
      · intro h
        obtain ⟨_, ⟨w, rfl, v, hv, rfl⟩, rfl⟩ := punctuation_follows_iff.mp h
        exact ⟨rfl, [w], .cons hv .nil, rfl⟩
      · rintro ⟨hlength, texts, htexts, rfl⟩
        obtain ⟨v, rfl⟩ := List.length_eq_one_iff.mp hlength
        cases htexts with
        | @cons _ w _ _ hw hrest =>
            cases hrest
            exact punctuation_follows_iff.mpr ⟨[w], ⟨w, rfl, v, hw, rfl⟩, rfl⟩
  | succ n ih =>
      constructor
      · intro h
        obtain ⟨w, v, _, vs', hv, hrest, rfl, rfl⟩ := follows_valued_iff.mp h
        obtain ⟨ts', hmore, rfl⟩ := follows_punctuation_iff.mp hrest
        obtain ⟨hlength, texts, htexts, rfl⟩ := ih.mp hmore
        refine ⟨congrArg Nat.succ hlength, w :: texts, .cons hv htexts, ?_⟩
        cases htexts with
        | nil => cases hlength
        | cons => rfl
      · rintro ⟨hlength, texts, htexts, rfl⟩
        cases htexts with
        | nil => cases hlength
        | @cons v w vs texts hw htexts =>
            have hmore : Arguments n (texts.intersperse [','] ++ [[')']]) vs :=
              ih.mpr ⟨Nat.succ.inj hlength, texts, htexts, rfl⟩
            refine follows_valued_iff.mpr
              ⟨w, v, _, vs, hw, follows_punctuation_iff.mpr ⟨_, hmore, rfl⟩, ?_, rfl⟩
            -- There is a second text, so a comma stands behind the first one.
            cases htexts with
            | nil => cases hlength
            | cons => rfl

theorem call_iff {t : List Char} {n : Nat} {ts : List (List Char)} {vs : List Float} :
    Call t n ts vs ↔ vs.length = n + 1 ∧ ∃ keyword texts, keyword.map Char.toLower = t ∧
      Spell vs texts ∧ ts = call keyword texts := by
  constructor
  · rintro ⟨_, _, _, _, ⟨k, rfl, hk, rfl⟩, hopened, rfl, rfl⟩
    obtain ⟨_, hargs, rfl⟩ := follows_punctuation_iff.mp hopened
    obtain ⟨hlength, texts, htexts, rfl⟩ := arguments_iff.mp hargs
    exact ⟨hlength, k, texts, mem_spellingsOf.mp hk, htexts, rfl⟩
  · rintro ⟨hlength, k, texts, hk, htexts, rfl⟩
    have hargs := arguments_iff.mpr ⟨hlength, texts, htexts, rfl⟩
    exact ⟨[k], _, [], vs, ⟨k, rfl, mem_spellingsOf.mpr hk, rfl⟩,
      follows_punctuation_iff.mpr ⟨_, hargs, rfl⟩, rfl, rfl⟩

/-- The texts of a color are those that say it. -/
theorem spelled_iff {t : List Char} {c : Color} (ht : Text.Trimmed t) :
    Spelled t c ↔ ∃ ts b, Said ts [some b] ∧ Spaced ts t ∧ b.color? = some c := by
  constructor
  · intro h
    cases h with
    | @digits ds _ hds hc =>
        have hne : ds ≠ [] := by rintro rfl; cases hc
        exact ⟨['#' :: ds], .digits ds, Or.inl ⟨_, rfl, ds, ⟨hne, hds⟩, rfl, rfl⟩, .token ds rfl,
          ofDigits?_eq_some_iff.mpr hc⟩
    | @rgb k _ texts r g b hk hvalues hs =>
        have hcall : Call "rgb".toList 2 (call k texts) [r, g, b] :=
          call_iff.mpr ⟨rfl, k, texts, hk, hvalues, rfl⟩
        exact ⟨_, .numbers [r, g, b], Or.inr (Or.inr ⟨_, hcall, rfl⟩), hs, rfl⟩
    | @rgba k _ texts r g b a hk hvalues hs =>
        have hcall : Call "rgba".toList 3 (call k texts) [r, g, b, a] :=
          call_iff.mpr ⟨rfl, k, texts, hk, hvalues, rfl⟩
        exact ⟨_, .numbers [r, g, b, a], Or.inr (Or.inl ⟨_, hcall, rfl⟩), hs, rfl⟩
  · -- How many values there are is known from the function, so its channels are at hand.
    rintro ⟨ts, b, hsaid, hs, hc⟩
    rcases hsaid with ⟨_, rfl, ds, hds, rfl, heq⟩ | ⟨values, hcall, heq⟩ | ⟨values, hcall, heq⟩
    · cases heq
      rw [eq_of_spaced ht hs]
      exact .digits hds.2 (ofDigits?_eq_some_iff.mp hc)
    · cases heq
      obtain ⟨hlength, k, texts, hk, hvalues, rfl⟩ := call_iff.mp hcall
      match values, hlength with
      | [r, g, b, a], _ =>
        cases hc
        exact .rgba hk hvalues hs
    · cases heq
      obtain ⟨hlength, k, texts, hk, hvalues, rfl⟩ := call_iff.mp hcall
      match values, hlength with
      | [r, g, b], _ =>
        cases hc
        exact .rgb hk hvalues hs

theorem said_singleton {ts : List (List Char)} {vs : List (Option Body)} (h : Said ts vs) :
    ∃ b, vs = [some b] := by
  obtain ⟨_, _, ds, _, _, rfl⟩ | ⟨values, _, rfl⟩ | ⟨values, _, rfl⟩ := h
  · exact ⟨.digits ds, rfl⟩
  · exact ⟨.numbers values, rfl⟩
  · exact ⟨.numbers values, rfl⟩

theorem body_endOfInput (i j : Nat) (w : List Char) :
    body ⟨.endOfInput, i, j, w, []⟩ = [none] := rfl

/-- The color of a node with its texts. -/
def ofTexts (input : List Char) (inner : Node RuleName) : Except ReadError Color :=
  if inner.name = .hexColor then
    match ofDigits? (inner.text.drop 1) with
    | some c => .ok c
    | none => .error (.malformedAt "hex color" input 1)
  else match channels? (inner.children.map Node.number) with
    | some c => .ok c.toColor
    | none => .error (.malformedAt "color" input inner.start)

section

variable {input : String} {node inner : Node RuleName} {rest : List (Node RuleName)}

/-- The node of a text has two inside, the color and the end, and only the first one counts. -/
theorem read_of_inner (hnode : RuleName.color.node "color" (Text.trim input.toList) = .ok node)
    (hchildren : node.children = inner :: rest) :
    read input = ofTexts (Text.trim input.toList) inner := by
  obtain ⟨name, i, j, w, children⟩ := node
  obtain rfl : children = inner :: rest := hchildren
  rw [read, hnode]
  rfl

/-- Reading takes the color of what the first node says. -/
theorem read_of_node {b : Body} {c : Color}
    (hnode : RuleName.color.node "color" (Text.trim input.toList) = .ok node)
    (hbody : node.children.flatMap body = [some b, none]) :
    read input = .ok c ↔ b.color? = some c := by
  rcases hchildren : node.children with _ | ⟨inner, rest⟩
  · rw [hchildren] at hbody
    cases hbody
  · rw [hchildren] at hbody
    -- The first child is the body, since the end of the input has no color.
    have hinner : body inner = [some b] := congrArg (fun vs => vs.take 1) hbody
    rw [read_of_inner hnode hchildren, ofTexts]
    rw [body] at hinner
    split at hinner
    · cases hinner
    · next hname =>
      cases hinner
      rw [if_pos hname, Body.color?]
      rcases ofDigits? (inner.text.drop 1) with _ | c'
      · exact ⟨fun h => (by cases h), fun h => (by cases h)⟩
      · exact ⟨fun h => congrArg some (Except.ok.inj h),
          fun h => congrArg Except.ok (Option.some.inj h)⟩
    · next hname =>
      cases hinner
      rw [if_neg hname, Body.color?]
      rcases channels? (inner.children.map Node.number) with _ | channels
      · exact ⟨fun h => (by cases h), fun h => (by cases h)⟩
      · exact ⟨fun h => congrArg some (Except.ok.inj h),
          fun h => congrArg Except.ok (Option.some.inj h)⟩

theorem read_of_error {e : ReadError}
    (hnode : RuleName.color.node "color" (Text.trim input.toList) = .error e) :
    read input = .error e := by
  rw [read, hnode]
  rfl

end

/-- What is read as a color is said by tokens of the trimmed text. -/
theorem read_iff_said {input : String} {c : Color} : read input = .ok c ↔
    ∃ ts b, Said ts [some b] ∧ Spaced ts (Text.trim input.toList) ∧ b.color? = some c := by
  constructor
  · intro h
    rcases hnode : RuleName.color.node "color" (Text.trim input.toList) with e | node
    · rw [read_of_error hnode] at h
      cases h
    · obtain ⟨ts, vs, hts, hs, hvs⟩ := reads_color.node_sound .color begins_said
        ⟨stops_nil _, trivial, trivial⟩ body_endOfInput rfl hnode
      obtain ⟨b, rfl⟩ := said_singleton hts
      exact ⟨ts, b, hts, hs, (read_of_node hnode hvs).mp h⟩
  · rintro ⟨ts, b, hts, hs, hc⟩
    obtain ⟨node, hnode, hvs⟩ := reads_color.node_complete .color begins_said
      ⟨stops_nil _, trivial, trivial⟩ body_endOfInput rfl hts hs
    exact (read_of_node hnode hvs).mpr hc

/-- **Reading a color** succeeds with the texts of colors and with nothing else, once they
    are trimmed, and then it comes to the color that the text spells. -/
theorem read_eq_ok_iff (input : String) (c : Color) :
    read input = .ok c ↔ Spelled (Text.trim input.toList) c := by
  rw [spelled_iff (Text.trimmed_trim _)]
  exact read_iff_said

example : (read "#12345").isOk = false := by decide +kernel

example : (read " RGB( 255 ,128, 0)\n").toOption = some (rgba 255 128 0 255) := by decide +kernel

end Color

end MapStyling
