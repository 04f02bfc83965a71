import MapStyling.Proofs.Colors
import MapStyling.Proofs.Displays

/-!
# Colors in Digits

Colors that are written down in digits and read again.

A color in digits has a long form, in which every channel has two digits. A digit of the short
form is written twice, and a color without alpha gets all of it. Reading a color in digits and
displaying it gives the long form in small letters, whatever letters it was written with. So a
color is read back from its text, and two texts are read as one color if their long forms differ
in the case of letters at most.

The channels are packed into a word by shifting them to places that do not overlap. Such a sum
has the channels as its digits in base 256, and each of them comes out of it as it went in.

## Main definitions

* `Color.HexText`: Three, four, six or eight digits behind a number sign.
* `Color.HexText.expansion`: The long form of them.

## Theorems

* `Color.toNat_rgba`: A packed color is a number with its channels as digits.
* `Color.channels_rgba`, `Color.rgba_channels`: Packing and taking apart.
* `Color.HexText.exists_read`: The long form is what a color in digits is displayed as.
* `Color.hexTexts_read`: Colors and their texts in digits.
-/

namespace MapStyling

namespace Text

/-- All digits have small codes, so what is true of them can be tried out. -/
theorem of_isHexDigit {P : Char → Prop} {d : Char} (h : isHexDigit d = true)
    (hall : ∀ n < 103, isHexDigit (Char.ofNat n) = true → P (Char.ofNat n)) : P d := by
  have hbound : d.toNat < 103 := by
    simp only [isHexDigit, Char.isDigit, Bool.or_eq_true, Bool.and_eq_true, decide_eq_true_eq] at h
    rcases h with (h | h) | h <;>
      exact lt_of_le_of_lt (UInt32.le_iff_toNat_le.mp h.2) (by decide)
  have hd := hall d.toNat hbound
  rw [Char.ofNat_toNat] at hd
  exact hd h

theorem hexDigitValue_lt {d : Char} (h : isHexDigit d = true) : hexDigitValue d < 16 :=
  of_isHexDigit (P := fun d => hexDigitValue d < 16) h (by decide)

/-- The digit of a value is the small one. -/
theorem hexDigit_hexDigitValue {d : Char} (h : isHexDigit d = true) :
    hexDigit (hexDigitValue d) = d.toLower :=
  of_isHexDigit (P := fun d => hexDigit (hexDigitValue d) = d.toLower) h (by decide)

theorem not_isBlank_of_isHexDigit {d : Char} (h : isHexDigit d = true) : isBlank d = false :=
  of_isHexDigit (P := fun d => isBlank d = false) h (by decide)

theorem isHexDigit_hexDigit {n : Nat} (h : n < 16) : isHexDigit (hexDigit n) = true := by
  have hall : ∀ n < 16, isHexDigit (hexDigit n) = true := by decide
  exact hall n h

theorem toLower_hexDigit {n : Nat} (h : n < 16) : (hexDigit n).toLower = hexDigit n := by
  have hall : ∀ n < 16, (hexDigit n).toLower = hexDigit n := by decide
  exact hall n h

end Text

namespace Color

/-- A channel that is shifted to its place does not leave the word. -/
theorem toNat_shiftLeft (c : UInt8) {k : UInt32} (hk : k.toNat ≤ 24) :
    (c.toUInt32 <<< k).toNat = 2 ^ k.toNat * c.toNat := by
  have hc := c.toNat_lt
  have hfits : 2 ^ k.toNat * c.toNat < 2 ^ 32 := by
    calc 2 ^ k.toNat * c.toNat ≤ 2 ^ 24 * c.toNat :=
          Nat.mul_le_mul_right _ (Nat.pow_le_pow_right (by decide) hk)
      _ < 2 ^ 32 := by omega
  rw [UInt32.toNat_shiftLeft, UInt8.toNat_toUInt32, Nat.mod_eq_of_lt (by omega : k.toNat < 32),
    Nat.shiftLeft_eq, Nat.mul_comm, Nat.mod_eq_of_lt hfits]

/-- What is below the place of a channel does not overlap with it. -/
theorem or_mul_two_pow {n k m : Nat} (hn : n < 2 ^ k) : n ||| 2 ^ k * m = n + 2 ^ k * m := by
  rw [Nat.or_comm, ← Nat.two_pow_add_eq_or_of_lt hn, Nat.add_comm]

/-- A packed color is the sum of its channels at their places. -/
theorem toNat_rgba (r g b a : UInt8) : (rgba r g b a).abgr.toNat
    = r.toNat + 2 ^ 8 * g.toNat + 2 ^ 16 * b.toNat + 2 ^ 24 * a.toNat := by
  have hr := r.toNat_lt
  have hg := g.toNat_lt
  have hb := b.toNat_lt
  simp only [rgba, UInt32.toNat_or, UInt8.toNat_toUInt32]
  rw [toNat_shiftLeft g (k := 8) (by decide), toNat_shiftLeft b (k := 16) (by decide),
    toNat_shiftLeft a (k := 24) (by decide)]
  change ((r.toNat ||| 2 ^ 8 * g.toNat) ||| 2 ^ 16 * b.toNat) ||| 2 ^ 24 * a.toNat = _
  -- What is packed already is below the place of the next channel.
  rw [or_mul_two_pow hr, or_mul_two_pow (k := 16) (by omega), or_mul_two_pow (k := 24) (by omega)]

theorem channels_rgba (r g b a : UInt8) : (rgba r g b a).channels = [r, g, b, a] := by
  have hword := toNat_rgba r g b a
  have hr := r.toNat_lt
  have hg := g.toNat_lt
  have hb := b.toNat_lt
  have ha := a.toNat_lt
  simp only [channels, red, green, blue, alpha, List.cons.injEq, ← UInt8.toNat_inj,
    UInt32.toNat_toUInt8, UInt32.toNat_shiftRight, Nat.shiftRight_eq_div_pow, hword, and_true]
  refine ⟨by omega, ?_, ?_, ?_⟩
  · change _ / 2 ^ 8 % 2 ^ 8 = _
    omega
  · change _ / 2 ^ 16 % 2 ^ 8 = _
    omega
  · change _ / 2 ^ 24 % 2 ^ 8 = _
    omega

theorem rgba_channels (c : Color) : rgba c.red c.green c.blue c.alpha = c :=
  channels_injective (channels_rgba c.red c.green c.blue c.alpha)

theorem hexByte_byte {h l : Char} (hh : Text.isHexDigit h = true) (hl : Text.isHexDigit l = true) :
    hexByte (byte h l) = [h.toLower, l.toLower] := by
  have hhigh := Text.hexDigitValue_lt hh
  have hlow := Text.hexDigitValue_lt hl
  have hnumber : (byte h l).toNat = 16 * Text.hexDigitValue h + Text.hexDigitValue l := by
    rw [byte, UInt8.toNat_ofNat', Text.hexNumber, List.foldl_cons, List.foldl_cons, List.foldl_nil]
    omega
  have hdiv : (byte h l).toNat / 16 = Text.hexDigitValue h := by omega
  have hmod : (byte h l).toNat % 16 = Text.hexDigitValue l := by omega
  rw [hexByte, hdiv, hmod, Text.hexDigit_hexDigitValue hh, Text.hexDigit_hexDigitValue hl]

theorem display_rgba {r r' g g' b b' a a' : Char} (hr : Text.isHexDigit r = true)
    (hr' : Text.isHexDigit r' = true) (hg : Text.isHexDigit g = true)
    (hg' : Text.isHexDigit g' = true) (hb : Text.isHexDigit b = true)
    (hb' : Text.isHexDigit b' = true) (ha : Text.isHexDigit a = true)
    (ha' : Text.isHexDigit a' = true) :
    (rgba (byte r r') (byte g g') (byte b b') (byte a a')).display
      = String.ofList ('#' :: [r, r', g, g', b, b', a, a'].map Char.toLower) := by
  simp only [display, channels_rgba, List.flatMap_cons, hexByte_byte hr hr', hexByte_byte hg hg',
    hexByte_byte hb hb', hexByte_byte ha ha']
  rfl

/-- Colors in digits: three, four, six or eight of them. -/
structure HexText where
  digits : List Char
  hexadecimal : ∀ d ∈ digits, Text.isHexDigit d = true
  length_mem : digits.length ∈ [3, 4, 6, 8]

namespace HexText

/-- The digits behind a number sign. -/
def text (t : HexText) : String := String.ofList ('#' :: t.digits)

/-- The long form: single digits are written twice, and alpha is full where it is missing. -/
def expansion (t : HexText) : List Char :=
  let pairs := if t.digits.length ≤ 4 then t.digits.flatMap fun d => [d, d] else t.digits
  if pairs.length = 6 then pairs ++ ['f', 'f'] else pairs

theorem exists_ofDigits (t : HexText) : ∃ c, OfDigits t.digits c := by
  obtain ⟨digits, _, hlength⟩ := t
  simp only [List.mem_cons, List.not_mem_nil, or_false] at hlength
  rcases hlength with h | h | h | h
  · match digits, h with
    | [r, g, b], _ => exact ⟨_, .three r g b⟩
  · match digits, h with
    | [r, g, b, a], _ => exact ⟨_, .four r g b a⟩
  · match digits, h with
    | [r, r', g, g', b, b'], _ => exact ⟨_, .six r r' g g' b b'⟩
  · match digits, h with
    | [r, r', g, g', b, b', a, a'], _ => exact ⟨_, .eight r r' g g' b b' a a'⟩

theorem display_of_ofDigits {t : HexText} {c : Color} (h : OfDigits t.digits c) :
    c.display = String.ofList ('#' :: t.expansion.map Char.toLower) := by
  obtain ⟨digits, hexadecimal, _⟩ := t
  have hf : Text.isHexDigit 'f' = true := rfl
  -- Digits that are left out for the alpha channel are those of a full one.
  have hfull : (255 : UInt8) = byte 'f' 'f' := by decide
  cases h with
  | three r g b =>
      simp only [List.forall_mem_cons] at hexadecimal
      obtain ⟨hr, hg, hb, _⟩ := hexadecimal
      rw [hfull, display_rgba hr hr hg hg hb hb hf hf]
      rfl
  | four r g b a =>
      simp only [List.forall_mem_cons] at hexadecimal
      obtain ⟨hr, hg, hb, ha, _⟩ := hexadecimal
      rw [display_rgba hr hr hg hg hb hb ha ha]
      rfl
  | six r r' g g' b b' =>
      simp only [List.forall_mem_cons] at hexadecimal
      obtain ⟨hr, hr', hg, hg', hb, hb', _⟩ := hexadecimal
      rw [hfull, display_rgba hr hr' hg hg' hb hb' hf hf]
      rfl
  | eight r r' g g' b b' a a' =>
      simp only [List.forall_mem_cons] at hexadecimal
      obtain ⟨hr, hr', hg, hg', hb, hb', ha, ha', _⟩ := hexadecimal
      rw [display_rgba hr hr' hg hg' hb hb' ha ha']
      rfl

/-- A color in digits is read, and displayed in its long form with small letters. -/
theorem exists_read (t : HexText) : ∃ c, read t.text = .ok c ∧
    c.display = String.ofList ('#' :: t.expansion.map Char.toLower) := by
  obtain ⟨c, hc⟩ := t.exists_ofDigits
  have htrimmed : Text.Trimmed ('#' :: t.digits) := Text.trimmed_of_forall fun d hd => by
    rcases List.mem_cons.mp hd with rfl | hd
    · rfl
    · exact Text.not_isBlank_of_isHexDigit (t.hexadecimal d hd)
  refine ⟨c, read_iff_said.mpr ?_, display_of_ofDigits hc⟩
  rw [text, String.toList_ofList, htrimmed]
  exact (spelled_iff htrimmed).mp (.digits t.hexadecimal hc)

/-- The digits that a color is displayed with. -/
def ofColor (c : Color) : HexText where
  digits := c.channels.flatMap hexByte
  hexadecimal := by
    intro d hd
    obtain ⟨b, _, hd⟩ := List.mem_flatMap.mp hd
    have hb := b.toNat_lt
    rcases List.mem_pair.mp hd with rfl | rfl
    · exact Text.isHexDigit_hexDigit (by omega)
    · exact Text.isHexDigit_hexDigit (by omega)
  length_mem := by
    change 8 ∈ [3, 4, 6, 8]
    decide

theorem text_ofColor (c : Color) : (ofColor c).text = c.display := rfl

/-- They are in the long form already, and small. -/
theorem map_toLower_ofColor (c : Color) :
    String.ofList ('#' :: (ofColor c).expansion.map Char.toLower) = c.display := by
  change String.ofList ('#' :: (c.channels.flatMap hexByte).map Char.toLower) = _
  rw [display, (List.map_congr_left fun d hd => ?_).trans (List.map_id _)]
  obtain ⟨b, _, hd⟩ := List.mem_flatMap.mp hd
  have hb := b.toNat_lt
  rcases List.mem_pair.mp hd with rfl | rfl
  · exact Text.toLower_hexDigit (by omega)
  · exact Text.toLower_hexDigit (by omega)

end HexText

/-- A color is read back from its text and packed again from its channels. A color in three, four,
    six or eight digits is read, and displayed in its long form with small letters. So two texts
    in digits are read as one color if and only if their long forms are the same but for the case
    of letters. -/
theorem hexTexts_read :
    (∀ c : Color, read c.display = .ok c ∧ rgba c.red c.green c.blue c.alpha = c) ∧
    (∀ t : HexText, ∃ c, read t.text = .ok c ∧
      c.display = String.ofList ('#' :: t.expansion.map Char.toLower)) ∧
    ∀ t u : HexText, (∃ c, read t.text = .ok c ∧ read u.text = .ok c) ↔
      t.expansion.map Char.toLower = u.expansion.map Char.toLower := by
  refine ⟨fun c => ⟨?_, rgba_channels c⟩, HexText.exists_read, fun t u => ?_⟩
  · obtain ⟨c', hread, hdisplay⟩ := (HexText.ofColor c).exists_read
    rw [HexText.map_toLower_ofColor] at hdisplay
    rw [HexText.text_ofColor, display_injective hdisplay] at hread
    exact hread
  · -- Both texts are read, so the question is whether the colors are displayed alike.
    obtain ⟨c, hc, htext⟩ := t.exists_read
    obtain ⟨d, hd, hutext⟩ := u.exists_read
    constructor
    · rintro ⟨c', ht, hu⟩
      have hsame : c = d := Except.ok.inj ((hc.symm.trans ht).trans (hu.symm.trans hd))
      rw [hsame, hutext] at htext
      exact (List.cons.inj (String.ofList_injective htext)).2.symm
    · intro h
      rw [h, ← hutext] at htext
      rw [← display_injective htext] at hd
      exact ⟨c, hc, hd⟩

example : (read "#F0a").toOption.map display = some "#ff00aaff" := by decide

end Color

end MapStyling
