import MapStyling.Proofs.Colors
import MapStyling.Proofs.Grammar.Spans
import MapStyling.Proofs.HexColors

/-!
# Spans of Colors

That reading a color takes only what is there, and points at what is there if it fails.

`Color.read` works on nodes, which have their texts with them, and on lists of characters. A
reader that has nothing but an input and offsets cuts all of that out of the input: the text of
a node, what is behind the number sign, a digit or two of them at a position. It takes channels
by their positions, and it multiplies bytes. All of this can go wrong, and `readSliced?` says so
if it does. That it never does and reads the same colors is due to the rules: digits are of one
byte each, there is a number sign in front of them, and there are three numbers at least.

Where reading fails, an offset is reported and the rest of the trimmed text is marked. The
offset is the furthest failure of the rules, or the one behind the number sign for a wrong
number of digits.

## Main definitions

* `Text.hexByte?`: A byte of some digits.
* `Color.readSliced?`: The reader that cuts out of its input.
* `Color.Inner`: What the rules guarantee of the node of a color.

## Theorems

* `Color.readSliced?_eq`: It reads the same, and always something.
* `Color.exists_cut_of_read_eq_error`: Where failures point.
* `Color.read_inside`: Both of them.
-/

namespace MapStyling

namespace Text

/-- What is behind a plus that something follows. -/
def withoutPlus : List Char → List Char
  | '+' :: d :: ds => d :: ds
  | s => s

/-- A byte of some digits, with a plus in front or without. There is none for what is no number
    and for one that is too large. -/
def hexByte? (s : List Char) : Option UInt8 :=
  let digits := withoutPlus s
  if digits ≠ [] ∧ digits.all isHexDigit ∧ hexNumber digits < 256 then
    some (.ofNat (hexNumber digits))
  else none

theorem withoutPlus_eq {s : List Char} (h : ∀ d ∈ s, isHexDigit d = true) : withoutPlus s = s := by
  rw [withoutPlus.eq_def]
  split
  · exact absurd (h '+' List.mem_cons_self) (by decide)
  · rfl

theorem hexByte?_eq {s : List Char} (hne : s ≠ []) (h : ∀ d ∈ s, isHexDigit d = true)
    (hbound : hexNumber s < 256) : hexByte? s = some (.ofNat (hexNumber s)) := by
  rw [hexByte?, withoutPlus_eq h]
  exact if_pos ⟨hne, List.all_eq_true.mpr h, hbound⟩

end Text

open Grammar

namespace Color

section

variable (digits : List Char) (i : Nat)

/-- The digit at an offset. -/
def nibbleAt? : Option UInt8 :=
  (Text.slice? digits i (i + 1)).map fun text => (Text.hexByte? text).getD 0

/-- The digit at an offset as two of itself, if they fit into a byte. -/
def wideAt? : Option UInt8 :=
  (nibbleAt? digits i).bind fun n => if n.toNat * 0x11 < 256 then some (n * 0x11) else none

/-- The two digits at an offset. -/
def byteAt? : Option UInt8 :=
  (Text.slice? digits i (i + 2)).map fun text => (Text.hexByte? text).getD 0

end

/-- The color of some digits, by their length in bytes and by offsets. -/
def ofSlices? (input digits : List Char) : Option (Except ReadError Color) :=
  match Text.byteLength digits with
  | 3 => do
    return .ok (rgba (← wideAt? digits 0) (← wideAt? digits 1) (← wideAt? digits 2) 0xff)
  | 4 => do
    return .ok (rgba (← wideAt? digits 0) (← wideAt? digits 1) (← wideAt? digits 2)
      (← wideAt? digits 3))
  | 6 => do
    return .ok (rgba (← byteAt? digits 0) (← byteAt? digits 2) (← byteAt? digits 4) 0xff)
  | 8 => do
    return .ok (rgba (← byteAt? digits 0) (← byteAt? digits 2) (← byteAt? digits 4)
      (← byteAt? digits 6))
  | _ => some (.error (.malformedAt "hex color" input 1))

/-- The number that stands between the places of a node. -/
def numberAt? (input : List Char) (n : Node RuleName) : Option Float :=
  (Text.slice? input n.start n.stop).map fun text => (Literal.literal? text).getD Double.nan

/-- The color of channels that are taken by their positions. -/
def ofPositions? (channels : List Float) : Option Color := do
  let alpha := channels[3]?.getD 1.0
  return Channels.toColor
    ⟨(← channels[0]?) / 255.0, (← channels[1]?) / 255.0, (← channels[2]?) / 255.0, alpha⟩

/-- The color of a node, with nothing but the places in it. -/
def ofPlaces? (input : List Char) (inner : Node RuleName) : Option (Except ReadError Color) :=
  match inner.name with
  | .hexColor => do
    let text ← Text.slice? input inner.start inner.stop
    let digits ← Text.behind? text 1
    ofSlices? input digits
  | .rgbColor | .rgbaColor => do
    let channels ← inner.children.mapM (numberAt? input)
    let color ← ofPositions? channels
    return .ok color
  | _ => some (.error (.malformedAt "color" input inner.start))

/-- Reading a color by slices of the input and positions, with bytes that may overflow. There is
    nothing if one of them does not exist. -/
def readSliced? (input : String) : Option (Except ReadError Color) :=
  let input := Text.trim input.toList
  match RuleName.color.node "color" input with
  | .error e => some (.error e)
  | .ok node =>
    match node.children with
    | [] => some (.error (.malformedAt "color" input 0))
    | inner :: _ => ofPlaces? input inner

/-- What the rules guarantee of the node of a color: digits behind a number sign, or three
    numbers at least. -/
inductive Inner : Node RuleName → Prop
  | digits {n : Node RuleName} {ds : List Char} (name : n.name = .hexColor)
      (text : n.text = '#' :: ds) (hexadecimal : ∀ d ∈ ds, Text.isHexDigit d = true) : Inner n
  | numbers {n : Node RuleName} (name : n.name = .rgbColor ∨ n.name = .rgbaColor)
      (channels : 3 ≤ n.children.length) : Inner n

/-- A function has one number more than commas. -/
theorem inner_of_call {name : RuleName} (hname : name = .rgbColor ∨ name = .rgbaColor)
    (t : List Char) {n : Nat} (hn : 2 ≤ n) {c next : Place} {nodes : List (Node RuleName)}
    (h : ((Pattern.rule name .spaced (Rules.inOrder (.anyCase ('r' :: t))
      (.word ['('] :: Rules.number :: closing n))).run .spaced c).found = some (nodes, next)) :
    ∃ inner, nodes = [inner] ∧ Inner inner := by
  rw [Pattern.found_rule_of_ne (by decide) (by decide)] at h
  obtain ⟨⟨children, stop⟩, hbody, heq⟩ := Option.map_eq_some_iff.mp h
  cases heq
  obtain ⟨w, _, ts, hcall, _⟩ := (reads_call t n).sound hbody
  have hlength : children.length = n + 1 := by
    rw [← (call_iff.mp hcall).1, ← List.map_eq_flatMap, List.length_map]
  exact ⟨_, rfl, .numbers hname (by change 3 ≤ children.length; omega)⟩

theorem inner_of_found {c next : Place} {nodes : List (Node RuleName)}
    (h : ((Pattern.choice Rules.hexColor (.choice Rules.rgbaColor Rules.rgbColor)).run
      .spaced c).found = some (nodes, next)) : ∃ inner, nodes = [inner] ∧ Inner inner := by
  rw [Pattern.found_choice, Pattern.found_choice, Option.or_eq_some_iff, Option.or_eq_some_iff] at h
  rcases h with h | ⟨_, h | ⟨_, h⟩⟩
  · rw [Rules.hexColor, Pattern.found_token (by decide)] at h
    obtain ⟨⟨inside, stop⟩, hbody, heq⟩ := Option.map_eq_some_iff.mp h
    cases heq
    obtain ⟨w, hw, hdigits, _⟩ := ((Pattern.readsToken_word ['#']).sequence
      (Pattern.readsToken_oneOrMore Text.isHexDigit) fun _ _ _ _ => trivial).sound hbody
    obtain ⟨ds, hds, rfl⟩ := mem_singleton_mul.mp hdigits
    exact ⟨_, rfl, .digits rfl (Pattern.take_of_past hw) hds.2⟩
  · exact inner_of_call (Or.inr rfl) "gba".toList (by decide : 2 ≤ 3) h
  · exact inner_of_call (Or.inl rfl) "gb".toList (by decide : 2 ≤ 2) h

/-- The node of a color has the one of its digits or its function in it, and it holds parts of
    the text. -/
theorem exists_inner {expected : String} {input : List Char} {node : Node RuleName}
    (h : RuleName.color.node expected input = .ok node) :
    ∃ inner rest, node.children = inner :: rest ∧ Inner inner ∧ inner.Held input := by
  have hparse := (Pattern.node_eq_ok_iff rfl).mp h
  have hheld := Pattern.held_of_parse hparse node List.mem_cons_self
  obtain ⟨children, last, hfound, heq⟩ := Pattern.parse_whole_iff.mp hparse
  obtain rfl := List.singleton_inj.mp heq
  rw [Pattern.found_sequence, Option.bind_eq_some_iff] at hfound
  obtain ⟨⟨first, between⟩, hfirst, hsecond⟩ := hfound
  obtain ⟨⟨more, stop⟩, _, hchildren⟩ := Option.map_eq_some_iff.mp hsecond
  obtain ⟨inner, rfl, hinner⟩ := inner_of_found hfirst
  cases hchildren
  exact ⟨inner, more, rfl, hinner, hheld.child List.mem_cons_self⟩

section Digits

variable {digits : List Char} {d h l : Char}

theorem utf8Size_of_isHexDigit (hd : Text.isHexDigit d = true) : d.utf8Size = 1 :=
  Text.of_isHexDigit (P := fun d => d.utf8Size = 1) hd (by decide)

theorem byteLength_of_isHexDigit (hdigits : ∀ d ∈ digits, Text.isHexDigit d = true) :
    Text.byteLength digits = digits.length := by
  induction digits with
  | nil => rfl
  | cons d digits ih =>
      rw [Text.byteLength_cons, utf8Size_of_isHexDigit (hdigits d List.mem_cons_self),
        ih fun e he => hdigits e (List.mem_cons_of_mem _ he), List.length_cons, Nat.add_comm]

/-- Offsets in digits are positions. -/
theorem slice?_digits {a m b : List Char}
    (hdigits : ∀ d ∈ a ++ (m ++ b), Text.isHexDigit d = true) :
    Text.slice? (a ++ (m ++ b)) a.length (a.length + m.length) = some m := by
  have ha : ∀ d ∈ a, Text.isHexDigit d = true := fun d hd => hdigits d (List.mem_append_left _ hd)
  have hm : ∀ d ∈ m, Text.isHexDigit d = true := fun d hd =>
    hdigits d (List.mem_append_right _ (List.mem_append_left _ hd))
  refine Text.slice?_eq_some_iff.mpr ⟨a, b, rfl, byteLength_of_isHexDigit ha, ?_⟩
  rw [Text.byteLength_append, byteLength_of_isHexDigit ha, byteLength_of_isHexDigit hm]

theorem hexByte?_digit (hd : Text.isHexDigit d = true) :
    Text.hexByte? [d] = some (digitValue d) := by
  have hnumber : Text.hexNumber [d] = Text.hexDigitValue d := Nat.zero_add _
  have hbound := Text.hexDigitValue_lt hd
  rw [Text.hexByte?_eq (List.cons_ne_nil _ _) (List.forall_mem_singleton.mpr hd) (by omega),
    hnumber]
  rfl

theorem hexByte?_digits (hdigits : ∀ d ∈ [h, l], Text.isHexDigit d = true) :
    Text.hexByte? [h, l] = some (double h l) := by
  have hnumber : Text.hexNumber [h, l] = 16 * Text.hexDigitValue h + Text.hexDigitValue l := by
    simp only [Text.hexNumber, List.foldl_cons, List.foldl_nil, Nat.mul_zero, Nat.zero_add]
  have hh := Text.hexDigitValue_lt (hdigits h List.mem_cons_self)
  have hl := Text.hexDigitValue_lt (hdigits l (List.mem_cons_of_mem _ List.mem_cons_self))
  rw [Text.hexByte?_eq (List.cons_ne_nil _ _) hdigits (by omega), double_eq, byte]

theorem wideAt?_eq {a b : List Char} (hdigits : ∀ e ∈ a ++ ([d] ++ b), Text.isHexDigit e = true) :
    wideAt? (a ++ ([d] ++ b)) a.length = some (single d) := by
  have hd : Text.isHexDigit d = true := hdigits d (List.mem_append_right _ List.mem_cons_self)
  have hslice : Text.slice? (a ++ ([d] ++ b)) a.length (a.length + 1) = some [d] :=
    slice?_digits hdigits
  have hbound : (digitValue d).toNat * 0x11 < 256 := by
    have hvalue := Text.hexDigitValue_lt hd
    rw [digitValue, UInt8.toNat_ofNat']
    omega
  rw [wideAt?, nibbleAt?, hslice, Option.map_some, hexByte?_digit hd, Option.bind_some]
  exact if_pos hbound

theorem byteAt?_eq {a b : List Char}
    (hdigits : ∀ e ∈ a ++ ([h, l] ++ b), Text.isHexDigit e = true) :
    byteAt? (a ++ ([h, l] ++ b)) a.length = some (double h l) := by
  have hslice : Text.slice? (a ++ ([h, l] ++ b)) a.length (a.length + 2) = some [h, l] :=
    slice?_digits hdigits
  rw [byteAt?, hslice, Option.map_some, hexByte?_digits fun e he =>
    hdigits e (List.mem_append_right _ (List.mem_append_left _ he))]
  rfl

/-- The lengths that are let through are those of the patterns of digits. -/
theorem ofSlices?_eq (input : List Char) (hdigits : ∀ d ∈ digits, Text.isHexDigit d = true) :
    ofSlices? input digits = some (match ofDigits? digits with
      | some c => .ok c
      | none => .error (.malformedAt "hex color" input 1)) := by
  -- Digits are of one byte, so the length in bytes says how many there are.
  rw [ofSlices?, byteLength_of_isHexDigit hdigits]
  split
  · next hlength =>
    match digits, hlength, hdigits with
    | [r, g, b], _, hdigits =>
      have hr : wideAt? [r, g, b] 0 = _ := wideAt?_eq (a := []) hdigits
      have hg : wideAt? [r, g, b] 1 = _ := wideAt?_eq (a := [r]) hdigits
      have hb : wideAt? [r, g, b] 2 = _ := wideAt?_eq (a := [r, g]) hdigits
      rw [hr, hg, hb]
      rfl
  · next hlength =>
    match digits, hlength, hdigits with
    | [r, g, b, a], _, hdigits =>
      have hr : wideAt? [r, g, b, a] 0 = _ := wideAt?_eq (a := []) hdigits
      have hg : wideAt? [r, g, b, a] 1 = _ := wideAt?_eq (a := [r]) hdigits
      have hb : wideAt? [r, g, b, a] 2 = _ := wideAt?_eq (a := [r, g]) hdigits
      have ha : wideAt? [r, g, b, a] 3 = _ := wideAt?_eq (a := [r, g, b]) hdigits
      rw [hr, hg, hb, ha]
      rfl
  · next hlength =>
    match digits, hlength, hdigits with
    | [r, r', g, g', b, b'], _, hdigits =>
      have hr : byteAt? [r, r', g, g', b, b'] 0 = _ := byteAt?_eq (a := []) hdigits
      have hg : byteAt? [r, r', g, g', b, b'] 2 = _ := byteAt?_eq (a := [r, r']) hdigits
      have hb : byteAt? [r, r', g, g', b, b'] 4 = _ := byteAt?_eq (a := [r, r', g, g']) hdigits
      rw [hr, hg, hb]
      rfl
  · next hlength =>
    match digits, hlength, hdigits with
    | [r, r', g, g', b, b', a, a'], _, hdigits =>
      have hr : byteAt? [r, r', g, g', b, b', a, a'] 0 = _ := byteAt?_eq (a := []) hdigits
      have hg : byteAt? [r, r', g, g', b, b', a, a'] 2 = _ := byteAt?_eq (a := [r, r']) hdigits
      have hb : byteAt? [r, r', g, g', b, b', a, a'] 4 = _ :=
        byteAt?_eq (a := [r, r', g, g']) hdigits
      have ha : byteAt? [r, r', g, g', b, b', a, a'] 6 = _ :=
        byteAt?_eq (a := [r, r', g, g', b, b']) hdigits
      rw [hr, hg, hb, ha]
      rfl
  · next hthree hfour hsix height =>
    have hnone : ofDigits? digits = none := by
      rw [ofDigits?.eq_def]
      split
      · exact absurd rfl hthree
      · exact absurd rfl hfour
      · exact absurd rfl hsix
      · exact absurd rfl height
      · rfl
    rw [hnone]

end Digits

theorem mapM_numberAt? {input : List Char} {ns : List (Node RuleName)}
    (h : ∀ n ∈ ns, n.Held input) : ns.mapM (numberAt? input) = some (ns.map Node.number) := by
  induction ns with
  | nil => rfl
  | cons n ns ih =>
      have hn : numberAt? input n = some n.number := by
        rw [numberAt?, (h n List.mem_cons_self).slice?]
        rfl
      rw [List.mapM_cons, hn, ih fun k hk => h k (List.mem_cons_of_mem _ hk)]
      rfl

/-- Three channels are all that positions need. -/
theorem ofPositions?_eq {channels : List Float} (h : 3 ≤ channels.length) :
    ∃ c, channels? channels = some c ∧ ofPositions? channels = some c.toColor := by
  match channels, h with
  | r :: g :: b :: more, _ =>
    refine ⟨⟨r / 255.0, g / 255.0, b / 255.0, more.head?.getD 1.0⟩, rfl, ?_⟩
    rw [List.head?_eq_getElem?]
    rfl

/-- Places in a node do as well as its texts. -/
theorem ofPlaces?_eq {input : List Char} {inner : Node RuleName} (hinner : Inner inner)
    (hheld : inner.Held input) : ofPlaces? input inner = some (ofTexts input inner) := by
  cases hinner with
  | digits hname htext hdigits =>
      rw [ofPlaces?, ofTexts, hname, if_pos rfl, hheld.slice?, htext]
      -- The number sign is of one byte too, and the slice behind it begins at a character.
      change (Text.behind? (['#'] ++ _) (Text.byteLength ['#'])).bind _ = _
      rw [Text.behind?_byteLength, Option.bind_some, ofSlices?_eq input hdigits]
      rfl
  | numbers hname hchannels =>
      have hlength : 3 ≤ (inner.children.map Node.number).length := by rwa [List.length_map]
      obtain ⟨c, hc, hpositions⟩ := ofPositions?_eq hlength
      have hne : inner.name ≠ .hexColor := by
        rcases hname with hname | hname <;> rw [hname] <;> decide
      have hnumbers := mapM_numberAt? fun n hn => hheld.child hn
      rw [ofTexts, if_neg hne, hc]
      rcases hname with hname | hname
      all_goals
        rw [ofPlaces?, hname, hnumbers]
        change (ofPositions? _).bind _ = _
        rw [hpositions]
        rfl

/-- **Reading cuts out what is there**: no slice, no position and no product of it fails, and it
    comes to the same. -/
theorem readSliced?_eq (input : String) : readSliced? input = some (read input) := by
  rcases hnode : RuleName.color.node "color" (Text.trim input.toList) with e | node
  · rw [read_of_error hnode]
    unfold readSliced?
    simp only [hnode]
  · obtain ⟨inner, rest, hchildren, hinner, hheld⟩ := exists_inner hnode
    rw [read_of_inner hnode hchildren, ← ofPlaces?_eq hinner hheld]
    unfold readSliced?
    simp only [hnode, hchildren]

/-- The text of a node of digits begins with a number sign, since nothing but blanks could stand
    in front of it. -/
theorem isCut_one {input : String} {node inner : Node RuleName} {rest : List (Node RuleName)}
    (hnode : RuleName.color.node "color" (Text.trim input.toList) = .ok node)
    (hchildren : node.children = inner :: rest) (hname : inner.name = .hexColor) :
    Text.IsCut (Text.trim input.toList) 1 := by
  obtain ⟨ts, vs, hsaid, hs, hvs⟩ := reads_color.node_sound .color begins_said
    ⟨stops_nil _, trivial, trivial⟩ body_endOfInput rfl hnode
  have hbody : body inner = [some (.digits (inner.text.drop 1))] := by rw [body, hname]
  rw [hchildren, List.flatMap_cons, hbody] at hvs
  rcases hsaid with ⟨_, rfl, ds, _, rfl, rfl⟩ | ⟨values, _, rfl⟩ | ⟨values, _, rfl⟩
  · rw [eq_of_spaced (Text.trimmed_trim _) hs]
    exact ⟨['#'], ds, rfl, rfl⟩
  · cases (List.cons.inj hvs).1
  · cases (List.cons.inj hvs).1

/-- A failure at an offset of a character marks all that is behind it. -/
theorem exists_malformed (expected : String) {input : List Char} {n : Nat}
    (h : Text.IsCut input n) :
    ∃ a b, input = a ++ b ∧ ReadError.malformedAt expected input n
      = .malformed expected (Text.byteLength a) (Text.byteLength b) := by
  obtain ⟨a, b, hinput, hmin⟩ := h.min (Text.isCut_byteLength input)
  refine ⟨a, b, hinput, ?_⟩
  have hlength : Text.byteLength input - Text.byteLength a = Text.byteLength b := by
    rw [hinput, Text.byteLength_append, Nat.add_sub_cancel_left]
  rw [ReadError.malformedAt, ← hmin, hlength]

/-- A failure of the rules is at an offset of a character. -/
theorem exists_isCut_of_node {r : RuleName} {expected : String} {input : List Char} {e : ReadError}
    (h : r.node expected input = .error e) :
    ∃ n, Text.IsCut input n ∧ e = .malformedAt expected input n := by
  rw [RuleName.node] at h
  split at h
  · next n hparse =>
    cases h
    exact ⟨n, Pattern.isCut_of_parse hparse, rfl⟩
  · cases h
  · cases h
    exact ⟨0, Text.isCut_zero input, rfl⟩

/-- **Failures point into the text**: it comes apart at the offset, and the rest is marked. -/
theorem exists_cut_of_read_eq_error {input : String} {e : ReadError} (h : read input = .error e) :
    ∃ expected a b, Text.trim input.toList = a ++ b ∧
      e = .malformed expected (Text.byteLength a) (Text.byteLength b) := by
  -- The grammar fails somewhere in the text, or the node of a part is refused at its start.
  obtain ⟨expected, n, hcut, rfl⟩ : ∃ expected n, Text.IsCut (Text.trim input.toList) n ∧
      e = .malformedAt expected (Text.trim input.toList) n := by
    rcases hnode : RuleName.color.node "color" (Text.trim input.toList) with e' | node
    · rw [read_of_error hnode] at h
      cases h
      exact ⟨"color", exists_isCut_of_node hnode⟩
    · obtain ⟨inner, rest, hchildren, _, hheld⟩ := exists_inner hnode
      rw [read_of_inner hnode hchildren, ofTexts] at h
      split at h
      · next hname =>
        split at h
        · cases h
        · cases h
          exact ⟨"hex color", 1, isCut_one hnode hchildren hname, rfl⟩
      · split at h
        · cases h
        · cases h
          exact ⟨"color", inner.start, Text.isCut_of_slice? hheld.slice?, rfl⟩
  exact ⟨expected, exists_malformed expected hcut⟩

/-- Reading a color gives a color or a failure for every text, and everything that it cuts out of
    the text is there. A failure is at an offset of a character of the trimmed text, at the end of
    it or before. What is marked reaches from there to the end of the text and is a slice of it. -/
theorem read_inside :
    (∀ input, readSliced? input = some (read input)) ∧
    ∀ input e, read input = .error e →
      ∃ expected offset length marked, e = .malformed expected offset length ∧
        offset ≤ Text.byteLength (Text.trim input.toList) ∧
        offset + length = Text.byteLength (Text.trim input.toList) ∧
        Text.behind? (Text.trim input.toList) offset = some marked ∧
        Text.slice? (Text.trim input.toList) offset (offset + length) = some marked := by
  refine ⟨readSliced?_eq, fun input e h => ?_⟩
  obtain ⟨expected, a, b, htext, rfl⟩ := exists_cut_of_read_eq_error h
  refine ⟨expected, _, _, b, rfl, ?_, ?_, ?_, ?_⟩
  · rw [htext, Text.byteLength_append]
    exact Nat.le_add_right _ _
  · rw [htext, Text.byteLength_append]
  · rw [htext, Text.behind?_byteLength]
  · refine Text.slice?_eq_some_iff.mpr ⟨a, [], ?_, rfl, Text.byteLength_append a b⟩
    rw [htext, List.append_nil]

/-- A letter of two bytes where a number should be is marked with all behind it, and the blank of
    three bytes in front of the text does not count. -/
theorem read_inside_letter : ∃ marked,
    read "\u3000rgb(1, é)" = .error (.malformed "color" 7 3) ∧
    Text.slice? (Text.trim "\u3000rgb(1, é)".toList) 7 10 = some marked ∧
    readSliced? "\u3000rgb(1, é)" = some (.error (.malformed "color" 7 3)) := by
  have hread : read "\u3000rgb(1, é)" = .error (.malformed "color" 7 3) := rfl
  obtain ⟨_, _, _, marked, heq, _, _, _, hslice⟩ := read_inside.2 _ _ hread
  cases heq
  exact ⟨marked, hread, hslice, hread ▸ read_inside.1 _⟩

example : read "\u00a0#12345" = .error (.malformed "hex color" 1 5) := rfl

end Color

end MapStyling
