import MapStyling.Engine.FunctionText
import MapStyling.Proofs.Slices
import MapStyling.Proofs.Trimmed

/-!
# Sources of Functions

Which texts are function expressions, and what their parts are.

The parts are found by punctuation alone. The first parenthesis that opens ends the name, the
first one behind it that closes ends the parameters, and of the braces only those at the two
ends of what is left count. So nothing that stands in a body matters, be it braces, line breaks
or nothing at all, and the body comes back as it was written.

The places are found as offsets in bytes and the parts are taken as slices. Each offset is one
of a character that has been found, and the slices begin and end in front of it or behind it:
parentheses are a byte long, so the offset behind one is not inside of a character.

## Main definitions

* `FunctionText.Source`: A function expression put together from its parts.
* `FunctionText.splitSliced?`: The parts, taken as slices between offsets.

## Theorems

* `FunctionText.split?_eq_some_iff`: The texts that are taken apart.
* `FunctionText.split?_text`: An expression comes apart into its parts.
* `FunctionText.splitSliced?_eq`: The slices exist, and they are the parts.
* `FunctionText.sources_split`: These together.
-/

namespace MapStyling

open Grammar (eq_nil_of_stops stops_cons)

namespace Text

theorem mem_of_mem_trim {c : Char} {s : List Char} (h : c ∈ trim s) : c ∈ s := by
  obtain ⟨x, y, hs, _, _⟩ := exists_strip isBlank s
  rw [hs]
  exact List.mem_append_right x (List.mem_append_left y h)

theorem trim_blank_cons {c : Char} (hc : isBlank c = true) (s : List Char) :
    trim (c :: s) = trim s := by
  rw [trim, List.dropWhile_cons_of_pos hc]
  rfl

end Text

namespace FunctionText

/-- A function expression: a name among blanks behind the keyword, parameters between
    parentheses, and a body between braces. -/
structure Source where
  name : List Char
  parameters : List Char
  gap : List Char
  body : List Char
  name_begins : ∀ c ∈ name.head?, Text.isBlank c = true
  name_unopened : '(' ∉ name
  name_chars : ∀ c ∈ Text.trim name, isNameChar c = true
  parameters_unclosed : ')' ∉ parameters
  gap_blank : ∀ c ∈ gap, Text.isBlank c = true

namespace Source

/-- The body between its braces. -/
def braced (t : Source) : List Char := '\x7b' :: (t.body ++ ['\x7d'])

/-- What is behind the keyword. -/
def rest (t : Source) : List Char :=
  t.name ++ '(' :: (t.parameters ++ ')' :: (t.gap ++ t.braced))

/-- The whole expression. -/
def text (t : Source) : List Char := keyword ++ t.rest

/-- What it comes apart into. -/
def parts (t : Source) : FunctionText := ⟨Text.trim t.parameters, t.body⟩

end Source

variable {s r rest body : List Char} {f : FunctionText} {t : Source}

theorem body?_eq_some_iff : body? r = some body ↔ Text.trim r = '\x7b' :: (body ++ ['\x7d']) := by
  rw [body?, Option.bind_eq_some_iff]
  constructor
  · rintro ⟨u, hu, hbody⟩
    rw [Text.afterFirst?_eq_some_iff.mp hu, Text.beforeLast?_eq_some_iff.mp hbody]
    rfl
  · intro h
    exact ⟨_, Text.afterFirst?_eq_some_iff.mpr h, Text.beforeLast?_eq_some_iff.mpr rfl⟩

theorem afterKeyword?_eq_some_iff : afterKeyword? rest = some f ↔
    ∃ name parameters r body, rest = name ++ '(' :: (parameters ++ ')' :: r) ∧
      '(' ∉ name ∧ (Text.trim name).all isNameChar = true ∧ ')' ∉ parameters ∧
      body? r = some body ∧ f = ⟨Text.trim parameters, body⟩ := by
  rw [afterKeyword?]
  constructor
  · -- Each split is at the first mark of its kind, so none is in the part before it.
    intro h
    obtain ⟨⟨name, afterOpen⟩, hopen, hnamed⟩ := Option.bind_eq_some_iff.mp h
    dsimp only at hnamed
    split at hnamed
    · cases hnamed
    · next hchars =>
      obtain ⟨⟨parameters, r⟩, hclose, hclosed⟩ := Option.bind_eq_some_iff.mp hnamed
      obtain ⟨body, hbody, hparts⟩ := Option.bind_eq_some_iff.mp hclosed
      obtain ⟨rfl, hname⟩ := Text.splitAt?_singleton_eq_some_iff.mp hopen
      obtain ⟨rfl, hparameters⟩ := Text.splitAt?_singleton_eq_some_iff.mp hclose
      rw [Bool.not_eq_true, Bool.not_eq_false'] at hchars
      exact ⟨name, parameters, r, body, rfl, hname, hchars, hparameters, hbody,
        (Option.some.inj hparts).symm⟩
  · rintro ⟨name, parameters, r, body, rfl, hname, hchars, hparameters, hbody, rfl⟩
    have hopen := Text.splitAt?_singleton (b := parameters ++ ')' :: r) hname
    have hclose := Text.splitAt?_singleton (b := r) hparameters
    rw [hopen, Option.bind_eq_bind, Option.bind_some]
    dsimp only
    rw [hchars, Bool.not_true, if_neg Bool.false_ne_true, hclose, Option.bind_eq_bind,
      Option.bind_some]
    dsimp only
    rw [hbody]
    rfl

/-- Behind the parameters a trimmed text is blank up to a brace, if there is a body, and it ends
    with the other brace. -/
theorem exists_gap {front : List Char} (hs : Text.trim s = front ++ r)
    (hbody : body? r = some body) : ∃ gap, r = gap ++ '\x7b' :: (body ++ ['\x7d']) ∧
      ∀ c ∈ gap, Text.isBlank c = true := by
  obtain ⟨x, y, hr, hx, hy⟩ := Text.exists_strip Text.isBlank r
  have htrim : Text.strip Text.isBlank r = '\x7b' :: (body ++ ['\x7d']) :=
    body?_eq_some_iff.mp hbody
  rw [htrim] at hr
  -- Blanks behind the brace would be at the end of the trimmed text.
  have hlast := (Text.stops_trim s).2
  rw [hs, hr, ← List.append_assoc, ← List.append_assoc, List.reverse_append] at hlast
  have hnil : y.reverse = [] :=
    eq_nil_of_stops (fun c hc => hy c (List.mem_reverse.mp hc)) hlast
  rw [List.reverse_eq_nil_iff.mp hnil, List.append_nil] at hr
  exact ⟨x, hr, hx⟩

/-- A text that is taken apart is an expression among blanks. -/
theorem exists_source (h : split? s = some f) :
    ∃ t : Source, Text.trim s = t.text ∧ t.parts = f := by
  obtain ⟨rest, hkeyword, h⟩ := Option.bind_eq_some_iff.mp h
  have hs := Text.afterFirst?_eq_some_iff.mp hkeyword
  cases rest with
  | nil => cases h
  | cons c cs =>
      dsimp only at h
      split at h
      · next hfirst =>
        obtain ⟨name, parameters, r, body, hrest, hname, hchars, hparameters, hbody, rfl⟩ :=
          afterKeyword?_eq_some_iff.mp h
        have hfront : Text.trim s
            = (keyword ++ (name ++ '(' :: (parameters ++ [')']))) ++ r := by
          rw [hs, hrest]
          simp only [List.append_assoc, List.cons_append, List.nil_append]
        obtain ⟨gap, rfl, hgap⟩ := exists_gap hfront hbody
        -- What is behind the keyword is the name, if there is one. It has no parenthesis in it,
        -- so it begins with a blank.
        have hbegins : ∀ d ∈ name.head?, Text.isBlank d = true := by
          intro d hd
          cases name with
          | nil => cases hd
          | cons e name =>
              cases hd
              obtain ⟨rfl, _⟩ := List.cons.inj hrest
              rw [Bool.or_eq_true, decide_eq_true_eq] at hfirst
              exact hfirst.resolve_right fun hc => hname (hc ▸ List.mem_cons_self)
        refine ⟨⟨name, parameters, gap, body, hbegins, hname, List.all_eq_true.mp hchars,
          hparameters, hgap⟩, ?_, rfl⟩
        rw [hs, hrest]
        rfl
      · cases h

/-- The keyword goes on as in front of a name or of parameters. -/
theorem Source.exists_first (t : Source) :
    ∃ c cs, t.rest = c :: cs ∧ (Text.isBlank c || decide (c = '(')) = true := by
  rw [rest]
  rcases hname : t.name with _ | ⟨c, cs⟩
  · exact ⟨'(', _, rfl, rfl⟩
  · refine ⟨c, _, rfl, ?_⟩
    rw [t.name_begins c (by rw [hname]; rfl)]
    rfl

theorem Source.body?_gap (t : Source) : body? (t.gap ++ t.braced) = some t.body := by
  refine body?_eq_some_iff.mpr (Text.trim_blanks_append t.gap_blank ?_)
  exact Text.trimmed_append (a := ['\x7b']) (List.cons_ne_nil _ _) (stops_cons.mpr rfl) t.body
    (List.cons_ne_nil _ _) (stops_cons.mpr rfl)

theorem split?_of_trim (h : Text.trim s = t.text) : split? s = some t.parts := by
  obtain ⟨c, cs, hrest, hfirst⟩ := t.exists_first
  have hkeyword : Text.afterFirst? keyword (Text.trim s) = some (c :: cs) := by
    rw [Text.afterFirst?_eq_some_iff, h, Source.text, hrest]
  rw [split?, hkeyword, Option.bind_eq_bind, Option.bind_some]
  dsimp only
  rw [if_pos hfirst, ← hrest]
  exact afterKeyword?_eq_some_iff.mpr ⟨t.name, t.parameters, _, t.body, rfl, t.name_unopened,
    List.all_eq_true.mpr t.name_chars, t.parameters_unclosed, t.body?_gap, rfl⟩

theorem split?_eq_some_iff :
    split? s = some f ↔ ∃ t : Source, Text.trim s = t.text ∧ t.parts = f := by
  constructor
  · exact exists_source
  · rintro ⟨t, hs, rfl⟩
    exact split?_of_trim hs

/-- An expression has no blanks at its ends. -/
theorem Source.trimmed_text (t : Source) : Text.Trimmed t.text := by
  have htext : t.text = keyword ++ ((t.name ++ '(' :: (t.parameters ++ ')' :: (t.gap ++
      '\x7b' :: t.body))) ++ ['\x7d']) := by
    simp only [text, rest, braced, List.append_assoc, List.cons_append]
  rw [htext]
  exact Text.trimmed_append (List.cons_ne_nil _ _) (stops_cons.mpr rfl) _
    (List.cons_ne_nil _ _) (stops_cons.mpr rfl)

theorem split?_text (t : Source) : split? t.text = some t.parts := split?_of_trim t.trimmed_text

/-- The expression with a name, one blank in front of it and one in front of the body. -/
def Source.named (name parameters body : List Char) (hname : ∀ c ∈ name, isNameChar c = true)
    (hparameters : ')' ∉ parameters) : Source where
  name := ' ' :: name
  parameters := parameters
  gap := [' ']
  body := body
  name_begins := by
    rintro c ⟨⟩
    rfl
  name_unopened := by
    have hopen : isNameChar '(' = false := by decide
    refine List.not_mem_cons_of_ne_of_not_mem (by decide) fun hmem => ?_
    rw [hname _ hmem] at hopen
    cases hopen
  name_chars := by
    intro c hc
    rw [Text.trim_blank_cons rfl] at hc
    exact hname c (Text.mem_of_mem_trim hc)
  parameters_unclosed := hparameters
  gap_blank := by
    intro c hc
    rw [List.mem_singleton.mp hc]
    rfl

/-- What follows the keyword, taken apart at offsets. It is nothing at all if a slice does not
    exist, and not the parts of a function if there are none. -/
def afterKeywordSliced? (rest : List Char) : Option (Option FunctionText) :=
  match Text.offsetOf? '(' rest with
  | none => some none
  | some opening => do
    let name ← Text.before? rest opening
    if !(Text.trim name).all isNameChar then return none
    let fromOpening ← Text.behind? rest opening
    match Text.offsetOf? ')' fromOpening with
    | none => return none
    | some distance =>
      let closing := opening + distance
      let parameters ← Text.slice? rest (opening + 1) closing
      let afterClosing ← Text.behind? rest (closing + 1)
      return (body? afterClosing).map fun body => ⟨Text.trim parameters, body⟩

/-- The parts of a function expression, taken as slices between offsets. -/
def splitSliced? (source : List Char) : Option (Option FunctionText) :=
  match Text.afterFirst? keyword (Text.trim source) with
  | some (c :: cs) =>
    if Text.isBlank c || c = '(' then afterKeywordSliced? (c :: cs) else some none
  | _ => some none

/-- The slices that are taken for parameters and body exist: the parentheses are where they were
    found, and each of them is a byte long. -/
theorem slices_of_append (name parameters r : List Char) :
    Text.slice? (name ++ '(' :: (parameters ++ ')' :: r)) (Text.byteLength name + 1)
        (Text.byteLength name + (Text.byteLength parameters + 1)) = some parameters ∧
      Text.behind? (name ++ '(' :: (parameters ++ ')' :: r))
        (Text.byteLength name + (Text.byteLength parameters + 1) + 1) = some r := by
  have hopen : Text.byteLength ['('] = 1 := rfl
  have hclose : Text.byteLength [')'] = 1 := rfl
  constructor
  · refine Text.slice?_eq_some_iff.mpr ⟨name ++ ['('], ')' :: r, ?_, ?_, ?_⟩
    · simp only [List.append_assoc, List.cons_append, List.nil_append]
    · rw [Text.byteLength_append, hopen]
    · rw [Text.byteLength_append, Text.byteLength_append, hopen]
      omega
  · -- The other slice is all that stands behind the closing parenthesis.
    have htext : name ++ '(' :: (parameters ++ ')' :: r)
        = (name ++ (['('] ++ (parameters ++ [')']))) ++ r := by
      simp only [List.append_assoc, List.cons_append, List.nil_append]
    have hlength : Text.byteLength name + (Text.byteLength parameters + 1) + 1
        = Text.byteLength (name ++ (['('] ++ (parameters ++ [')']))) := by
      simp only [Text.byteLength_append, hopen, hclose]
      omega
    rw [htext, hlength, Text.behind?_byteLength]

theorem afterKeywordSliced?_eq (rest : List Char) :
    afterKeywordSliced? rest = some (afterKeyword? rest) := by
  rw [afterKeywordSliced?, afterKeyword?, Text.offsetOf?_eq]
  rcases hopen : Text.splitAt? ['('] rest with _ | ⟨name, afterOpen⟩
  · rfl
  · obtain ⟨rfl, _⟩ := Text.splitAt?_singleton_eq_some_iff.mp hopen
    simp only [Option.map_some, Text.before?_byteLength, Text.behind?_byteLength,
      Option.bind_eq_bind, Option.bind_some]
    split
    · rfl
    · -- The search for the other parenthesis begins at the one that opens.
      have hdistance : Text.offsetOf? ')' ('(' :: afterOpen)
          = (Text.offsetOf? ')' afterOpen).map (· + 1) := rfl
      rw [hdistance, Text.offsetOf?_eq, Option.map_map]
      rcases hclose : Text.splitAt? [')'] afterOpen with _ | ⟨parameters, r⟩
      · rfl
      · obtain ⟨rfl, _⟩ := Text.splitAt?_singleton_eq_some_iff.mp hclose
        obtain ⟨hslice, hbehind⟩ := slices_of_append name parameters r
        simp only [Option.map_some, Function.comp_apply, hslice, hbehind, Option.bind_some]
        rcases body? r with _ | body <;> rfl

/-- Every slice exists, and the slices are the parts. -/
theorem splitSliced?_eq (source : List Char) : splitSliced? source = some (split? source) := by
  rw [splitSliced?, split?]
  rcases Text.afterFirst? keyword (Text.trim source) with _ | _ | ⟨c, cs⟩
  · rfl
  · rfl
  · simp only [Option.bind_eq_bind, Option.bind_some]
    split
    · exact afterKeywordSliced?_eq _
    · rfl

/-- A text is taken apart if and only if it is a function expression among blanks, and then into
    the parameters without the blanks around them and the body as it stands. So whatever an
    expression is put together from comes back, for every name, all parameters that no
    parenthesis closes, and every body. None of the slices that are taken on the way is outside
    of the text or begins or ends inside of a character. -/
theorem sources_split :
    (∀ s f, split? s = some f ↔ ∃ t : Source, Text.trim s = t.text ∧ t.parts = f) ∧
    (∀ t : Source, split? t.text = some t.parts) ∧
    (∀ name parameters body : List Char, (∀ c ∈ name, isNameChar c = true) → ')' ∉ parameters →
      split? (keyword ++ ' ' :: (name ++ '(' :: (parameters ++ ')' :: ' ' :: '\x7b' ::
        (body ++ ['\x7d'])))) = some ⟨Text.trim parameters, body⟩) ∧
    ∀ s, splitSliced? s = some (split? s) :=
  ⟨fun _ _ => split?_eq_some_iff, split?_text,
    fun name parameters body hname hparameters =>
      split?_text (Source.named name parameters body hname hparameters),
    splitSliced?_eq⟩

theorem sources_split_scale :
    split? "function größe( a, b) \x7bif (a) \x7b\n  \"é\"\n\x7d\x7d".toList
      = some ⟨"a, b".toList, "if (a) \x7b\n  \"é\"\n\x7d".toList⟩ := by
  have hname : ∀ c ∈ "größe".toList, isNameChar c = true :=
    List.all_eq_true.mp (by decide)
  have hparameters : ')' ∉ " a, b".toList := by decide
  exact sources_split.2.2.1 "größe".toList " a, b".toList "if (a) \x7b\n  \"é\"\n\x7d".toList
    hname hparameters

end FunctionText

end MapStyling
