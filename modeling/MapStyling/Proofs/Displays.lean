import MapStyling.Proofs.Cases
import MapStyling.Proofs.PlainTexts
import MapStyling.Proofs.Trimmed

/-!
# Texts of Values

The text of a style value determines the value.

A text begins with a label. No label is the beginning of another, so the label tells the kind
of the value, and what is left without the ending is the text of the payload. Within a payload,
parts end where a character comes that they cannot have: a number ends at its unit or at a
comma, and digits of a character end at a brace. In a quoted text every character has an image of its own, and no
image is the beginning of another one, so images that stand in a row are told apart as well.
A text in quotes may spell the text of any other value, but not without the quotes.

No text has blanks at its ends, and what comes out where nothing compiles begins with none of
the labels. So an outcome that is compared with the text of a value agrees with it if it is
the text of this value, however the comparison trims.

## Main definitions

* `Text.Image`: What a character becomes in a quoted text.
* `StyleValue.Kind`, `Kind.label`, `Kind.ending`: The kinds of values, and what stands around
  their payloads.
* `StyleValue.payload`: The text between a label and an ending.
* `Case.compiled`, `Case.decoded`: What becomes of a style case before it is put into words.

## Theorems

* `Color.display_injective`, `Width.display_injective`, `Size.display_injective`,
  `StyleValue.display_injective`: Different values have different texts.
* `StyleValue.trimmed_display`: Texts are trimmed.
* `Case.run_style`: The run of a style case.
* `StyleValue.display_ne_compileErrorText`: No text is the one of a fault.
* `outcomes_identify_values`: An outcome that matches is the expected value.
-/

namespace MapStyling

open Grammar (Stops stops_cons takeWhile_append_of_stops dropWhile_append_of_stops)

namespace Text

/-- A text ends where a character comes that it cannot have. -/
theorem append_inj_of_stops {p : Char → Bool} {a a' b b' : List Char}
    (ha : ∀ c ∈ a, p c = true) (ha' : ∀ c ∈ a', p c = true) (hb : Stops p b) (hb' : Stops p b')
    (h : a ++ b = a' ++ b') : a = a' ∧ b = b' := by
  constructor
  · rw [← takeWhile_append_of_stops ha hb, h, takeWhile_append_of_stops ha' hb']
  · rw [← dropWhile_append_of_stops ha hb, h, dropWhile_append_of_stops ha' hb']

theorem hexNumber_append (ds : List Char) (d : Char) :
    hexNumber (ds ++ [d]) = 16 * hexNumber ds + hexDigitValue d := by
  rw [hexNumber, List.foldl_append]
  rfl

theorem hexDigitValue_digitChar {n : Nat} (h : n < 16) : hexDigitValue n.digitChar = n := by
  have hall : ∀ n < 16, hexDigitValue (Nat.digitChar n) = n := by decide
  exact hall n h

theorem isHexDigit_digitChar {n : Nat} (h : n < 16) : isHexDigit n.digitChar = true := by
  have hall : ∀ n < 16, isHexDigit (Nat.digitChar n) = true := by decide
  exact hall n h

theorem hexNumber_toDigits (n : Nat) : hexNumber (Nat.toDigits 16 n) = n := by
  induction n using Nat.base_induction 16 (by decide) with
  | single m hm =>
      rw [Nat.toDigits_of_lt_base hm, hexNumber, List.foldl_cons, List.foldl_nil, Nat.mul_zero,
        Nat.zero_add, hexDigitValue_digitChar hm]
  | digit m k hk hm ih =>
      rw [← Nat.toDigits_append_toDigits (by decide) hm hk, Nat.toDigits_of_lt_base hk,
        hexNumber_append, ih, hexDigitValue_digitChar hk]

theorem isHexDigit_of_mem_toDigits {n : Nat} {c : Char} (h : c ∈ Nat.toDigits 16 n) :
    isHexDigit c = true := by
  induction n using Nat.base_induction 16 (by decide) with
  | single m hm =>
      rw [Nat.toDigits_of_lt_base hm, List.mem_singleton] at h
      rw [h, isHexDigit_digitChar hm]
  | digit m k hk hm ih =>
      rw [← Nat.toDigits_append_toDigits (by decide) hm hk, Nat.toDigits_of_lt_base hk] at h
      rcases List.mem_append.mp h with h | h
      · exact ih h
      · rw [List.mem_singleton.mp h, isHexDigit_digitChar hk]

/-- The characters with a letter behind a backslash, and their letters. -/
def letters : List (Char × Char) :=
  [('\x00', '0'), ('\t', 't'), ('\r', 'r'), ('\n', 'n'), ('\\', '\\'), ('"', '"')]

/-- What a character becomes in a quoted text: a backslash and a letter, a backslash and its
    number in braces, or itself, if it is not a backslash. -/
inductive Image (c : Char) : List Char → Prop
  | letter (l : Char) (named : (c, l) ∈ letters) : Image c ['\\', l]
  | number : Image c ('\\' :: 'u' :: '\x7b' :: (Nat.toDigits 16 c.toNat ++ ['\x7d']))
  | itself (ne : c ≠ '\\') : Image c [c]

theorem image_quotedChar (c : Char) : Image c (quotedChar c) := by
  unfold quotedChar
  split_ifs with h₁ h₂ h₃ h₄ h₅ h₆ h₇
  · exact .letter '0' (by rw [h₁]; decide)
  · exact .letter 't' (by rw [h₂]; decide)
  · exact .letter 'r' (by rw [h₃]; decide)
  · exact .letter 'n' (by rw [h₄]; decide)
  · exact .letter '\\' (by rw [h₅]; decide)
  · exact .letter '"' (by rw [h₆]; decide)
  · exact .number
  · exact .itself h₅

/-- No image is the beginning of the image of another character. -/
theorem Image.append_inj {c d : Char} {u v x y : List Char} (hu : Image c u) (hv : Image d v)
    (h : u ++ x = v ++ y) : c = d := by
  have hnamed : ∀ p ∈ letters, ∀ q ∈ letters, p.2 = q.2 → p.1 = q.1 := by decide
  have hfree : ∀ p ∈ letters, p.2 ≠ 'u' := by decide
  -- The first two characters tell which of the three ways it is, and only numbers go on.
  cases hu with
  | letter l hl =>
      cases hv with
      | letter l' hl' => exact hnamed _ hl _ hl' (List.cons.inj (List.cons.inj h).2).1
      | number => exact absurd (List.cons.inj (List.cons.inj h).2).1 (hfree _ hl)
      | itself hne => exact absurd (List.cons.inj h).1.symm hne
  | number =>
      cases hv with
      | letter l' hl' => exact absurd (List.cons.inj (List.cons.inj h).2).1.symm (hfree _ hl')
      | number =>
          -- The digits of both end at the brace.
          have hrest : (Nat.toDigits 16 c.toNat ++ ['\x7d']) ++ x
              = (Nat.toDigits 16 d.toNat ++ ['\x7d']) ++ y :=
            (List.cons.inj (List.cons.inj (List.cons.inj h).2).2).2
          rw [List.append_assoc, List.append_assoc] at hrest
          have hdigits := (append_inj_of_stops (fun _ => isHexDigit_of_mem_toDigits)
            (fun _ => isHexDigit_of_mem_toDigits) (stops_cons.mpr rfl) (stops_cons.mpr rfl) hrest).1
          have hcode : c.toNat = d.toNat := by
            rw [← hexNumber_toDigits c.toNat, hdigits, hexNumber_toDigits]
          exact Char.toNat_inj.mp hcode
      | itself hne => exact absurd (List.cons.inj h).1.symm hne
  | itself hne =>
      cases hv with
      | letter l' hl' => exact absurd (List.cons.inj h).1 hne
      | number => exact absurd (List.cons.inj h).1 hne
      | itself _ => exact (List.cons.inj h).1

theorem Image.ne_nil {c : Char} {u : List Char} (hu : Image c u) : u ≠ [] := by
  cases hu <;> exact List.cons_ne_nil _ _

/-- Images that stand in a row are told apart. -/
theorem flatMap_quotedChar_inj {s t : List Char}
    (h : s.flatMap quotedChar = t.flatMap quotedChar) : s = t := by
  induction s generalizing t with
  | nil =>
      cases t with
      | nil => rfl
      | cons d t => exact absurd (List.append_eq_nil_iff.mp h.symm).1 (image_quotedChar d).ne_nil
  | cons c s ih =>
      cases t with
      | nil => exact absurd (List.append_eq_nil_iff.mp h).1 (image_quotedChar c).ne_nil
      | cons d t =>
          rw [List.flatMap_cons, List.flatMap_cons] at h
          obtain rfl := (image_quotedChar c).append_inj (image_quotedChar d) h
          rw [ih (List.append_cancel_left h)]

end Text

namespace Color

theorem hexByte_inj {x y : UInt8} (h : hexByte x = hexByte y) : x = y := by
  have hdigit : ∀ m < 16, ∀ n < 16, Text.hexDigit m = Text.hexDigit n → m = n := by decide
  have hx := x.toNat_lt
  have hy := y.toNat_lt
  rw [hexByte, hexByte] at h
  have hhigh := hdigit _ (by omega) _ (by omega) (List.cons.inj h).1
  have hlow := hdigit _ (by omega) _ (by omega) (List.cons.inj (List.cons.inj h).2).1
  exact UInt8.toNat_inj.mp (by omega)

/-- The channels of a color are the digits of its word in base 256. -/
theorem channels_injective {c d : Color} (h : c.channels = d.channels) : c = d := by
  obtain ⟨x⟩ := c
  obtain ⟨y⟩ := d
  have hx := x.toNat_lt
  have hy := y.toNat_lt
  simp only [channels, red, green, blue, alpha, List.cons.injEq, ← UInt8.toNat_inj,
    UInt32.toNat_toUInt8, UInt32.toNat_shiftRight, Nat.shiftRight_eq_div_pow] at h
  obtain ⟨hred, hgreen, hblue, halpha, -⟩ := h
  change x.toNat / 2 ^ 8 % 2 ^ 8 = y.toNat / 2 ^ 8 % 2 ^ 8 at hgreen
  change x.toNat / 2 ^ 16 % 2 ^ 8 = y.toNat / 2 ^ 16 % 2 ^ 8 at hblue
  change x.toNat / 2 ^ 24 % 2 ^ 8 = y.toNat / 2 ^ 24 % 2 ^ 8 at halpha
  exact congrArg Color.mk (UInt32.toNat_inj.mp (by omega))

theorem flatMap_hexByte_inj {bs bs' : List UInt8}
    (h : bs.flatMap hexByte = bs'.flatMap hexByte) : bs = bs' := by
  induction bs generalizing bs' with
  | nil =>
      cases bs' with
      | nil => rfl
      | cons b' bs' => exact absurd h.symm (List.cons_ne_nil _ _)
  | cons b bs ih =>
      cases bs' with
      | nil => exact absurd h (List.cons_ne_nil _ _)
      | cons b' bs' =>
          rw [List.flatMap_cons, List.flatMap_cons] at h
          obtain ⟨hbyte, hrest⟩ := List.append_inj h rfl
          rw [hexByte_inj hbyte, ih hrest]

theorem display_injective {c d : Color} (h : c.display = d.display) : c = d :=
  channels_injective (flatMap_hexByte_inj (List.cons.inj (String.ofList_injective h)).2)

end Color

namespace MeasureUnit

/-- No number goes on in a unit. -/
theorem stops_suffix (u : MeasureUnit) (r : List Char) :
    Stops NumberFormat.isPlain (u.suffix.toList ++ r) := by
  cases u <;> exact stops_cons.mpr (by decide)

theorem suffix_injective {u v : MeasureUnit} (h : u.suffix = v.suffix) : u = v := by
  revert u v
  have hall : ∀ u ∈ all, ∀ v ∈ all, u.suffix = v.suffix → u = v := by decide
  intro u v
  exact hall u (by cases u <;> decide) v (by cases v <;> decide)

/-- No comma is in a unit. -/
theorem ne_comma_of_mem_suffix {u : MeasureUnit} {c : Char} (h : c ∈ u.suffix.toList) :
    c ≠ ',' := by
  rintro rfl
  cases u <;> exact absurd h (by decide)

end MeasureUnit

namespace NumberFormat

theorem ne_comma_of_isPlain {c : Char} (h : isPlain c = true) : c ≠ ',' := by
  rintro rfl
  exact absurd h (by decide)

theorem isPlain_of_mem_single {v : Float32} {c : Char} (h : c ∈ (plain.single v).toList) :
    isPlain c = true := isPlain_of_mem_text h

end NumberFormat

open NumberFormat (isPlain_of_mem_single ne_comma_of_isPlain)

/-- Two parts with a comma between them, and none in the first one. -/
theorem Text.append_comma_inj {a a' b b' : String} (ha : ∀ c ∈ a.toList, c ≠ ',')
    (ha' : ∀ c ∈ a'.toList, c ≠ ',') (h : a ++ ", " ++ b = a' ++ ", " ++ b') :
    a = a' ∧ b = b' := by
  have hlist := congrArg String.toList h
  simp only [String.toList_append, List.append_assoc] at hlist
  have hstops : ∀ b : List Char, Stops (· != ',') (", ".toList ++ b) := fun _ => stops_cons.mpr rfl
  obtain ⟨hfirst, hsecond⟩ := append_inj_of_stops (fun c hc => bne_iff_ne.mpr (ha c hc))
    (fun c hc => bne_iff_ne.mpr (ha' c hc)) (hstops _) (hstops _) hlist
  exact ⟨String.toList_inj.mp hfirst, String.toList_inj.mp (List.append_cancel_left hsecond)⟩

namespace Width

theorem display_injective {w w' : Width} (h : w.display = w'.display) : w = w' := by
  obtain ⟨v, u⟩ := w
  obtain ⟨v', u'⟩ := w'
  have hlist := congrArg String.toList h
  simp only [display, String.toList_append] at hlist
  -- The suffix begins where the number cannot go on.
  have hstops := fun u : MeasureUnit => List.append_nil u.suffix.toList ▸ u.stops_suffix []
  obtain ⟨hvalue, hunit⟩ := Text.append_inj_of_stops (fun _ => isPlain_of_mem_single)
    (fun _ => isPlain_of_mem_single) (hstops u) (hstops u') hlist
  rw [NumberFormat.single_injective (String.toList_inj.mp hvalue),
    MeasureUnit.suffix_injective (String.toList_inj.mp hunit)]

theorem ne_comma_of_mem_display {w : Width} {c : Char} (h : c ∈ w.display.toList) : c ≠ ',' := by
  rw [display, String.toList_append] at h
  rcases List.mem_append.mp h with h | h
  · exact ne_comma_of_isPlain (isPlain_of_mem_single h)
  · exact MeasureUnit.ne_comma_of_mem_suffix h

end Width

theorem Size.display_injective {s s' : Size} (h : s.display = s'.display) : s = s' := by
  obtain ⟨x, y⟩ := s
  obtain ⟨x', y'⟩ := s'
  obtain ⟨hx, hy⟩ := Text.append_comma_inj (fun _ => Width.ne_comma_of_mem_display)
    (fun _ => Width.ne_comma_of_mem_display) h
  exact congrArg₂ Size.mk (Width.display_injective hx) (Width.display_injective hy)

namespace StyleValue

/-- The kinds of values, the two flags apart. -/
inductive Kind
  | none
  | undefined
  | text
  | flag (b : Bool)
  | pair
  | color
  | width
  | size
  | number
  | word
  deriving DecidableEq

namespace Kind

def all : List Kind :=
  [none, undefined, text, flag false, flag true, pair, color, width, size, number, word]

/-- What a text begins with. -/
def label : Kind → String
  | none => "none"
  | undefined => "undefined"
  | text => "\""
  | flag b => flagText b
  | pair => "vec2("
  | color => "color("
  | width => "width("
  | size => "size("
  | number => "float("
  | word => "uint("

/-- What a text ends with. -/
def ending : Kind → String
  | none | undefined | flag _ => ""
  | text => "\""
  | pair | color | width | size | number | word => ")"

theorem mem_all (k : Kind) : k ∈ all := by
  cases k with
  | flag b => cases b <;> decide
  | _ => decide

/-- A text with an ending is trimmed whatever stands before the ending. -/
theorem trimmed_of_ending {k : Kind} (h : k.ending ≠ "") (p : List Char) :
    Text.Trimmed (k.label.toList ++ (p ++ k.ending.toList)) := by
  cases k with
  | none => exact absurd rfl h
  | undefined => exact absurd rfl h
  | flag b => exact absurd rfl h
  | _ =>
      refine Text.trimmed_append ?_ ?_ p ?_ ?_
      · decide
      · exact stops_cons.mpr rfl
      · decide
      · exact stops_cons.mpr rfl

/-- No label is the beginning of another one. -/
theorem eq_of_prefix {k l : Kind} (h : k.label.toList <+: l.label.toList) : k = l := by
  have hall : ∀ k ∈ all, ∀ l ∈ all, k.label.toList <+: l.label.toList → k = l := by decide
  exact hall k k.mem_all l l.mem_all h

end Kind

def kind : StyleValue → Kind
  | none => .none
  | undefined => .undefined
  | text _ => .text
  | flag b => .flag b
  | pair _ _ => .pair
  | color _ => .color
  | width _ => .width
  | size _ => .size
  | number _ => .number
  | word _ => .word

/-- What a text is between its label and its ending. -/
def payload : StyleValue → String
  | none | undefined | flag _ => ""
  | text s => String.ofList (s.toList.flatMap Text.quotedChar)
  | pair x y => NumberFormat.plain.single x ++ ", " ++ NumberFormat.plain.single y
  | color c => c.display
  | width w => w.display
  | size s => s.display
  | number v => NumberFormat.plain.single v
  | word n => Digits.text n.toNat

theorem display_eq (v : StyleValue) :
    v.display.toList = v.kind.label.toList ++ (v.payload.toList ++ v.kind.ending.toList) := by
  cases v <;> simp [display, Text.quoted, payload, kind, Kind.label, Kind.ending]

/-- Values of a kind with one payload are the same. -/
theorem eq_of_payload : ∀ {v w : StyleValue}, v.kind = w.kind → v.payload = w.payload → v = w
  | none, none, _, _ => rfl
  | undefined, undefined, _, _ => rfl
  | text _, text _, _, h =>
    congrArg text (String.toList_inj.mp (Text.flatMap_quotedChar_inj (String.ofList_injective h)))
  | flag _, flag _, hkind, _ => congrArg flag (Kind.flag.inj hkind)
  | pair _ _, pair _ _, _, h => by
    obtain ⟨hx, hy⟩ := Text.append_comma_inj (fun _ hc => ne_comma_of_isPlain
      (isPlain_of_mem_single hc)) (fun _ hc => ne_comma_of_isPlain (isPlain_of_mem_single hc)) h
    rw [NumberFormat.single_injective hx, NumberFormat.single_injective hy]
  | color _, color _, _, h => congrArg color (Color.display_injective h)
  | width _, width _, _, h => congrArg width (Width.display_injective h)
  | size _, size _, _, h => congrArg size (Size.display_injective h)
  | number _, number _, _, h => congrArg number (NumberFormat.single_injective h)
  | word _, word _, _, h => congrArg word (UInt32.toNat_inj.mp (Digits.text_injective h))

/-- Different values have different texts. -/
theorem display_injective {v w : StyleValue} (h : v.display = w.display) : v = w := by
  have hlist : v.kind.label.toList ++ (v.payload.toList ++ v.kind.ending.toList)
      = w.kind.label.toList ++ (w.payload.toList ++ w.kind.ending.toList) := by
    rw [← display_eq, ← display_eq, h]
  -- Both labels begin the same text, so one of them begins the other.
  have hkind : v.kind = w.kind := by
    rcases List.prefix_or_prefix_of_prefix (List.prefix_append _ _) (hlist ▸ List.prefix_append _ _)
      with hprefix | hprefix
    · exact (Kind.eq_of_prefix hprefix).symm
    · exact Kind.eq_of_prefix hprefix
  rw [hkind] at hlist
  exact eq_of_payload hkind
    (String.toList_inj.mp (List.append_cancel_right (List.append_cancel_left hlist)))

/-- Texts are trimmed. -/
theorem trimmed_display (v : StyleValue) : Text.Trimmed v.display.toList := by
  cases v with
  | none => rfl
  | undefined => rfl
  | flag b => cases b <;> rfl
  | _ =>
      rw [display_eq]
      exact Kind.trimmed_of_ending (by simp [kind, Kind.ending]) _

/-- No text is the one of a case that does not compile. -/
theorem display_ne_compileErrorText (v : StyleValue) : v.display ≠ Case.compileErrorText := by
  intro h
  have hnone : ∀ k ∈ Kind.all, ¬k.label.toList <+: Case.compileErrorText.toList := by decide
  refine hnone v.kind v.kind.mem_all ?_
  rw [← h, display_eq]
  exact List.prefix_append _ _

end StyleValue

/-- A comparison tells trimmed texts apart, and no others. -/
theorem Comparison.isMatch_ofTexts {expected actual : String}
    (hexpected : Text.Trimmed expected.toList) (hactual : Text.Trimmed actual.toList) :
    (ofTexts expected actual).isMatch = true ↔ expected = actual := by
  have htrim : Text.trim expected.toList = Text.trim actual.toList ↔ expected = actual := by
    rw [show Text.trim expected.toList = expected.toList from hexpected,
      show Text.trim actual.toList = actual.toList from hactual, String.toList_inj]
  rw [ofTexts, ← htrim]
  split
  · next h => exact iff_of_true rfl h
  · next h => exact iff_of_false Bool.false_ne_true h

namespace Case

section

variable {β : Type} [StyleBackend β]

/-- Installing the globals of a case and compiling its function. -/
def build (c : Case) : StateM (Styler β) Bool := do
  Styler.setGlobals c.sceneGlobals
  Styler.setFunctions [c.source]

/-- Whether the function of a case compiles on a styler. -/
def compiled (c : Case) (s : Styler β) : Bool := (c.build.run s).1

/-- What the function of a case is decoded to on a styler, shown what the case names. -/
def decoded (c : Case) (key : StyleKey) (s : Styler β) : StyleValue :=
  ((do c.present; Styler.evalStyle 0 key : StateM (Styler β) StyleValue).run (c.build.run s).2).1

/-- The run of a style case. -/
theorem run_style {c : Case} {key : StyleKey} (hkey : c.key = .style key) (s : Styler β) :
    (c.run.run s).1
      = if c.compiled s then (c.decoded key s).display else compileErrorText := by
  have hrun : c.run = (do
      if !(← c.build) then return compileErrorText
      c.present
      let answer ← ask c.key
      Styler.clear
      return answer : StateM (Styler β) String) := by
    unfold Case.run Case.build Case.present
    -- The level of zoom is set if the case names one.
    rcases c.zoom with _ | level <;> rfl
  rw [hrun, hkey, run_bind_state, compiled, decoded]
  generalize c.build.run s = built
  rcases built with ⟨_ | _, s⟩ <;> rfl

end

end Case

/-- Different values have different texts, and a case that expects the text of a value agrees
    with what comes out if the function compiles and is decoded to the value. -/
theorem outcomes_identify_values :
    (∀ v w : StyleValue, v.display = w.display ↔ v = w) ∧
    (∀ v : StyleValue, Text.Trimmed v.display.toList ∧ v.display ≠ Case.compileErrorText) ∧
    ∀ {β : Type} [StyleBackend β] (c : Case) (key : StyleKey) (w : StyleValue) (s : Styler β),
      let c := { c with key := .style key, expect := w.display }
      (Comparison.ofTexts c.expect (c.run.run s).1).isMatch = true ↔
        c.compiled s = true ∧ c.decoded key s = w := by
  refine ⟨fun v w => ⟨StyleValue.display_injective, congrArg _⟩,
    fun v => ⟨v.trimmed_display, v.display_ne_compileErrorText⟩, ?_⟩
  intro β _ c key w s c
  have hrun : (c.run.run s).1 = if c.compiled s then (c.decoded key s).display
      else Case.compileErrorText := Case.run_style rfl s
  rw [hrun]
  -- A function that does not compile has an outcome that no value has as its text.
  by_cases hcompiled : c.compiled s = true
  · rw [if_pos hcompiled,
      Comparison.isMatch_ofTexts w.trimmed_display (StyleValue.trimmed_display _)]
    exact ⟨fun h => ⟨hcompiled, (StyleValue.display_injective h).symm⟩, fun h => h.2 ▸ rfl⟩
  · have htrimmed : Text.Trimmed Case.compileErrorText.toList := rfl
    rw [if_neg hcompiled, Comparison.isMatch_ofTexts w.trimmed_display htrimmed]
    exact iff_of_false w.display_ne_compileErrorText fun h => hcompiled h.1

end MapStyling
