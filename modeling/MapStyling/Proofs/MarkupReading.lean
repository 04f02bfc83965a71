import MapStyling.Proofs.Escapes

/-!
# Markup That Is Read

A reader of markup, and that it finds in written trees what they were made of.

The reader goes over the text once and knows nothing of how it was written. It takes off
one token at a time: a tag with its attributes, or a letter, which may be spelled as an entity.
A tag ends at the first angle bracket that is not in a quoted value. The tokens are put
together again with a stack of the elements that have begun and not ended. An end tag closes
the innermost of them and has to bear its name, and some elements have no end at all.

Letters are kept one by one. So a text that is empty leaves nothing behind, and two texts side
by side are read like one.

That a tree is read back needs nothing of its texts and of the values of its attributes, since
they are escaped. Only names are written as they are, and they have to be made of letters and
digits.

## Main definitions

* `Markup.tokens?`: The tokens of a text.
* `Markup.Node`, `Markup.build?`: What the tokens are put together to.
* `Markup.tokens`, `Markup.nodes`: What a tree is to be read as.
* `Markup.proper`: Trees with names that can be read.

## Theorems

* `Markup.scan_render`: The tokens of a written tree.
* `Markup.foldlM_tokens`: What they are put together to.
-/

namespace MapStyling

namespace Markup

open Grammar (Stops stops_nil stops_cons takeWhile_append_of_stops dropWhile_append_of_stops)

/-- What a reader takes off a text at once. -/
inductive Token
  | opening (tag : String) (attributes : List (String × String))
  | closing (tag : String)
  /-- What is said between `<!` and `>`, which is not a part of the content. -/
  | declaration (said : String)
  | letter (c : Char)
  deriving DecidableEq

/-- What is inside of a tag, and what is behind it. A bracket between quotes does not end it. -/
def insideTag? (quoted : Bool) : List Char → Option (List Char × List Char)
  | [] => none
  | c :: s =>
    if c = '>' && !quoted then some ([], s)
    else (insideTag? (if c = '"' then !quoted else quoted) s).map fun (inside, rest) =>
      (c :: inside, rest)

/-- An attribute behind a space: a name, and a value in quotes. -/
def attribute? : List Char → Option ((String × String) × List Char)
  | ' ' :: s => do
    let (name, s) ← Text.splitAt? ['='] s
    let s ← Text.afterFirst? ['"'] s
    let (written, s) ← Text.splitAt? ['"'] s
    let value ← unescape? written
    return ((.ofList name, .ofList value), s)
  | _ => none

/-- The tag with something inside. -/
def tag? : List Char → Option Token
  | '/' :: tag => some (.closing (.ofList tag))
  | '!' :: said => some (.declaration (.ofList said))
  | inside => do
    let attributes ← Text.scan attribute? (inside.dropWhile fun c => c ≠ ' ')
    return .opening (.ofList (inside.takeWhile fun c => c ≠ ' ')) attributes

/-- A tag or a letter, and what is behind it. -/
def token? : List Char → Option (Token × List Char)
  | '<' :: s => do
    let (inside, rest) ← insideTag? false s
    let tag ← tag? inside
    return (tag, rest)
  | s => (character? s).map fun (c, rest) => (.letter c, rest)

/-- The tokens of a text. -/
def tokens? (s : String) : Option (List Token) := Text.scan token? s.toList

/-- Letters, and elements with what is inside of them. -/
inductive Node
  | letter (c : Char)
  | element (tag : String) (attributes : List (String × String)) (children : List Node)

/-- An element that has begun, and what stands in front of it inside of its parent. -/
structure Begun where
  tag : String
  attributes : List (String × String)
  before : List Node

/-- The elements that have begun, the innermost one first, and what is inside of it so far. -/
structure Progress where
  begun : List Begun
  here : List Node

/-- Tags of elements that have no content and no end. -/
def voidTags : List String :=
  ["area", "base", "br", "col", "embed", "hr", "img", "input", "link", "meta", "source", "track",
    "wbr"]

/-- What comes of a token. There has to be an element for an end tag, and of its name. -/
def add (p : Progress) : Token → Option Progress
  | .letter c => some ⟨p.begun, p.here ++ [.letter c]⟩
  | .declaration _ => some p
  | .opening tag attributes =>
    if tag ∈ voidTags then some ⟨p.begun, p.here ++ [.element tag attributes []]⟩
    else some ⟨⟨tag, attributes, p.here⟩ :: p.begun, []⟩
  | .closing tag =>
    match p.begun with
    | [] => none
    | e :: begun =>
      if tag = e.tag then some ⟨begun, e.before ++ [.element e.tag e.attributes p.here]⟩ else none

/-- The content that the tokens are put together to, with all elements ended. -/
def build? (ts : List Token) : Option (List Node) :=
  (ts.foldlM add ⟨[], []⟩).bind fun p => if p.begun.isEmpty then some p.here else none

/-- What a text is read as. -/
def read? (s : String) : Option (List Node) := (tokens? s).bind build?

mutual

/-- The tokens that a tree is to be read as. -/
def tokens : Markup → List Token
  | text s => s.toList.map .letter
  | element tag attributes children =>
    .opening tag attributes :: (allTokens children ++ [.closing tag])
  | void tag attributes => [.opening tag attributes]

def allTokens : List Markup → List Token
  | [] => []
  | m :: ms => tokens m ++ allTokens ms

end

mutual

/-- The content that a tree is to be read as. -/
def nodes : Markup → List Node
  | text s => s.toList.map .letter
  | element tag attributes children => [.element tag attributes (allNodes children)]
  | void tag attributes => [.element tag attributes []]

def allNodes : List Markup → List Node
  | [] => []
  | m :: ms => nodes m ++ allNodes ms

end

/-- Names that are written as they are. -/
def isName (s : String) : Bool := s.toList.all Char.isAlphanum

mutual

/-- Trees with names that can be read, and with the elements without an end that are known. -/
def proper : Markup → Bool
  | text _ => true
  | element tag attributes children =>
    isName tag && !voidTags.contains tag && attributes.all (fun a => isName a.1) &&
      allProper children
  | void tag attributes =>
    isName tag && voidTags.contains tag && attributes.all fun a => isName a.1

def allProper : List Markup → Bool
  | [] => true
  | m :: ms => proper m && allProper ms

end

theorem allTokens_eq (ms : List Markup) : allTokens ms = ms.flatMap tokens := by
  induction ms with
  | nil => rfl
  | cons m ms ih => rw [allTokens, ih, List.flatMap_cons]

theorem allNodes_eq (ms : List Markup) : allNodes ms = ms.flatMap nodes := by
  induction ms with
  | nil => rfl
  | cons m ms ih => rw [allNodes, ih, List.flatMap_cons]

theorem allProper_eq (ms : List Markup) : allProper ms = ms.all proper := by
  induction ms with
  | nil => rfl
  | cons m ms ih => rw [allProper, ih, List.all_cons]

section

variable {tag : String} {attributes : List (String × String)} {a : String × String}
variable {u s rest : List Char} {ts : List Token}

theorem ne_of_isName (h : isName tag = true) {c d : Char} (hc : c ∈ tag.toList)
    (hd : d.isAlphanum = false) : c ≠ d := by
  rintro rfl
  rw [List.all_eq_true.mp h c hc] at hd
  cases hd

/-- An attribute as it is written. -/
def attributeText (a : String × String) : List Char :=
  ' ' :: (a.1.toList ++ '=' :: '"' :: (a.2.toList.flatMap image ++ ['"']))

theorem toList_opening (tag : String) (attributes : List (String × String)) :
    (opening tag attributes).toList
      = '<' :: (tag.toList ++ (attributes.flatMap attributeText ++ ['>'])) := by
  have hwritten : ∀ a : String × String,
      (" " ++ a.1 ++ "=\"" ++ escape a.2 ++ "\"").toList = attributeText a := by
    intro a
    simp [attributeText, toList_escape]
  simp [opening, List.flatMap_map, hwritten]

/-- What is neither a bracket nor a quote does not end a tag. -/
theorem insideTag?_append {quoted : Bool} (h : ∀ c ∈ u, c ≠ '>' ∧ c ≠ '"') :
    insideTag? quoted (u ++ s)
      = (insideTag? quoted s).map fun (inside, rest) => (u ++ inside, rest) := by
  induction u with
  | nil => exact Option.map_id'.symm
  | cons c u ih =>
      obtain ⟨hbracket, hquote⟩ := h c List.mem_cons_self
      rw [List.cons_append, insideTag?, decide_eq_false hbracket, Bool.false_and,
        if_neg Bool.false_ne_true, if_neg hquote, ih fun d hd => h d (List.mem_cons_of_mem _ hd),
        Option.map_map]
      rfl

/-- An attribute does not end a tag: its value is in quotes, and no quote is left in it. -/
theorem insideTag?_attributeText (h : isName a.1 = true) : insideTag? false (attributeText a ++ s)
    = (insideTag? false s).map fun (inside, rest) => (attributeText a ++ inside, rest) := by
  have hname : ∀ c ∈ ' ' :: (a.1.toList ++ ['=']), c ≠ '>' ∧ c ≠ '"' := by
    intro c hc
    simp only [List.mem_cons, List.mem_append, List.not_mem_nil, or_false] at hc
    rcases hc with rfl | hc | rfl
    · decide
    · exact ⟨ne_of_isName h hc rfl, ne_of_isName h hc rfl⟩
    · decide
  have hvalue : ∀ c ∈ a.2.toList.flatMap image, c ≠ '>' ∧ c ≠ '"' := fun c hc =>
    ⟨fun heq => not_mem_flatMap_image (d := '>') (by decide) (heq ▸ hc),
      fun heq => not_mem_flatMap_image (d := '"') (by decide) (heq ▸ hc)⟩
  -- The quotes switch between the two states, and the value is read in the second one.
  have hopen : ∀ r, insideTag? false ('"' :: r)
      = (insideTag? true r).map fun (inside, rest) => ('"' :: inside, rest) := fun _ => rfl
  have hclose : ∀ r, insideTag? true ('"' :: r)
      = (insideTag? false r).map fun (inside, rest) => ('"' :: inside, rest) := fun _ => rfl
  have htext : ∀ r, attributeText a ++ r
      = ' ' :: (a.1.toList ++ ['=']) ++ '"' :: (a.2.toList.flatMap image ++ '"' :: r) := by
    intro r
    simp [attributeText]
  rw [htext, insideTag?_append hname, hopen, insideTag?_append hvalue, hclose, Option.map_map,
    Option.map_map, Option.map_map]
  refine Option.map_congr fun parts _ => ?_
  simp only [Function.comp_apply, htext]

theorem insideTag?_attributes (h : attributes.all (fun a => isName a.1) = true) :
    insideTag? false (attributes.flatMap attributeText ++ '>' :: rest)
      = some (attributes.flatMap attributeText, rest) := by
  induction attributes with
  | nil => rfl
  | cons a attributes ih =>
      obtain ⟨ha, hrest⟩ := Bool.and_eq_true_iff.mp h
      rw [List.flatMap_cons, List.append_assoc, insideTag?_attributeText ha, ih hrest]
      rfl

theorem attribute?_attributeText (h : isName a.1 = true) (rest : List Char) :
    attribute? (attributeText a ++ rest) = some (a, rest) := by
  have hname : '=' ∉ a.1.toList := fun hc => ne_of_isName h hc rfl rfl
  have hvalue : '"' ∉ a.2.toList.flatMap image := not_mem_flatMap_image (by decide)
  have htext : attributeText a ++ rest
      = ' ' :: (a.1.toList ++ '=' :: ('"' :: (a.2.toList.flatMap image ++ '"' :: rest))) := by
    simp [attributeText]
  rw [htext]
  simp only [attribute?, Option.bind_eq_bind, Text.splitAt?_singleton hname, Option.bind_some,
    Text.afterFirst?, if_true, Text.splitAt?_singleton hvalue, unescape?_flatMap_image,
    String.ofList_toList]
  rfl

theorem scan_attributes (h : attributes.all (fun a => isName a.1) = true) :
    Text.scan attribute? (attributes.flatMap attributeText) = some attributes := by
  induction attributes with
  | nil => exact Text.scan_nil attribute?
  | cons a attributes ih =>
      obtain ⟨ha, hrest⟩ := Bool.and_eq_true_iff.mp h
      rw [List.flatMap_cons]
      refine Text.scan_cons (attribute?_attributeText ha _) ?_ (ih hrest)
      rw [List.length_append]
      exact Nat.lt_add_of_pos_left (Nat.succ_pos _)

/-- Names and attributes are told apart by the first space. -/
theorem tag?_opening (htag : isName tag = true)
    (h : attributes.all (fun a => isName a.1) = true) :
    tag? (tag.toList ++ attributes.flatMap attributeText) = some (.opening tag attributes) := by
  have hname : ∀ c ∈ tag.toList, (decide (c ≠ ' ')) = true := fun c hc =>
    decide_eq_true (ne_of_isName htag hc rfl)
  have hstop : Stops (fun c => decide (c ≠ ' ')) (attributes.flatMap attributeText) := by
    cases attributes with
    | nil => exact stops_nil _
    | cons a attributes => exact stops_cons.mpr rfl
  -- A name begins neither like a closing tag nor like a declaration.
  have hfirst : Stops (fun c => c = '/' || c = '!')
      (tag.toList ++ attributes.flatMap attributeText) := by
    rcases htoList : tag.toList with _ | ⟨c, t⟩
    · exact hstop.mono fun c hc => by
        rw [decide_eq_false_iff_not, not_not] at hc
        rw [hc]
        rfl
    · have hc : c ∈ tag.toList := htoList ▸ List.mem_cons_self
      exact stops_cons.mpr (Bool.or_eq_false_iff.mpr
        ⟨decide_eq_false (ne_of_isName htag hc rfl), decide_eq_false (ne_of_isName htag hc rfl)⟩)
  rw [tag?.eq_def]
  split
  · next heq => exact absurd (stops_cons.mp (heq ▸ hfirst)) (by decide)
  · next heq => exact absurd (stops_cons.mp (heq ▸ hfirst)) (by decide)
  · rw [takeWhile_append_of_stops hname hstop, dropWhile_append_of_stops hname hstop,
      scan_attributes h, String.ofList_toList]
    rfl

theorem token?_opening (htag : isName tag = true)
    (h : attributes.all (fun a => isName a.1) = true) (rest : List Char) :
    token? ((opening tag attributes).toList ++ rest) = some (.opening tag attributes, rest) := by
  have hname : ∀ c ∈ tag.toList, c ≠ '>' ∧ c ≠ '"' := fun c hc =>
    ⟨ne_of_isName htag hc rfl, ne_of_isName htag hc rfl⟩
  have htext : (opening tag attributes).toList ++ rest
      = '<' :: (tag.toList ++ (attributes.flatMap attributeText ++ '>' :: rest)) := by
    simp [toList_opening]
  rw [htext, token?, insideTag?_append hname, insideTag?_attributes h]
  simp only [Option.map_some, Option.bind_eq_bind, Option.bind_some, tag?_opening htag h]
  rfl

theorem token?_closing (htag : isName tag = true) (rest : List Char) :
    token? (("</" ++ tag ++ ">").toList ++ rest) = some (.closing tag, rest) := by
  have hname : ∀ c ∈ '/' :: tag.toList, c ≠ '>' ∧ c ≠ '"' := by
    intro c hc
    rcases List.mem_cons.mp hc with rfl | hc
    · decide
    · exact ⟨ne_of_isName htag hc rfl, ne_of_isName htag hc rfl⟩
  have htext : ("</" ++ tag ++ ">").toList ++ rest = '<' :: ('/' :: tag.toList ++ '>' :: rest) := by
    simp
  have hend : insideTag? false ('>' :: rest) = some ([], rest) := rfl
  rw [htext, token?, insideTag?_append hname, hend]
  simp only [Option.map_some, Option.bind_eq_bind, Option.bind_some, List.append_nil, tag?,
    String.ofList_toList]
  rfl

/-- No letter is written like the beginning of a tag. -/
theorem token?_letter (c : Char) (rest : List Char) :
    token? (image c ++ rest) = some (.letter c, rest) := by
  have hbracket : '<' ∉ [c].flatMap image := not_mem_flatMap_image (by decide)
  rw [List.flatMap_singleton] at hbracket
  rw [token?.eq_def]
  split
  · next s heq =>
    rcases himage : image c with _ | ⟨d, t⟩
    · exact absurd himage (image_ne_nil c)
    · rw [himage] at heq hbracket
      obtain ⟨rfl, _⟩ := List.cons.inj heq
      exact absurd List.mem_cons_self hbracket
  · rw [character?_image]
    rfl

/-- A token comes off the front of a text. -/
theorem scan_token {w : List Char} {t : Token} (hw : w ≠ [])
    (ht : token? (w ++ rest) = some (t, rest)) (h : Text.scan token? rest = some ts) :
    Text.scan token? (w ++ rest) = some (t :: ts) := by
  refine Text.scan_cons ht ?_ h
  rw [List.length_append]
  exact Nat.lt_add_of_pos_left (List.length_pos_iff.mpr hw)

theorem scan_letters (s : List Char) (h : Text.scan token? rest = some ts) :
    Text.scan token? (s.flatMap image ++ rest) = some (s.map .letter ++ ts) := by
  induction s with
  | nil => exact h
  | cons c s ih =>
      rw [List.flatMap_cons, List.append_assoc]
      exact scan_token (image_ne_nil c) (token?_letter c _) ih

theorem scan_opening (htag : isName tag = true)
    (hattributes : attributes.all (fun a => isName a.1) = true)
    (h : Text.scan token? rest = some ts) :
    Text.scan token? ((opening tag attributes).toList ++ rest)
      = some (.opening tag attributes :: ts) := by
  refine scan_token ?_ (token?_opening htag hattributes rest) h
  rw [toList_opening]
  exact List.cons_ne_nil _ _

theorem scan_closing (htag : isName tag = true) (h : Text.scan token? rest = some ts) :
    Text.scan token? (("</" ++ tag ++ ">").toList ++ rest) = some (.closing tag :: ts) := by
  refine scan_token ?_ (token?_closing htag rest) h
  rw [String.toList_append, String.toList_append]
  exact List.cons_ne_nil _ _

end

mutual

/-- A written tree is read as the tokens of it, whatever stands behind. -/
theorem scan_render : ∀ (m : Markup) {rest : List Char} {ts : List Token}, m.proper = true →
    Text.scan token? rest = some ts →
    Text.scan token? (m.render.toList ++ rest) = some (m.tokens ++ ts)
  | text s, rest, ts, _, h => by
      rw [render, toList_escape, tokens]
      exact scan_letters s.toList h
  | void tag attributes, rest, ts, hproper, h => by
      simp only [proper, Bool.and_eq_true] at hproper
      obtain ⟨⟨htag, _⟩, hattributes⟩ := hproper
      rw [render, tokens]
      exact scan_opening htag hattributes h
  | element tag attributes children, rest, ts, hproper, h => by
      simp only [proper, Bool.and_eq_true] at hproper
      obtain ⟨⟨⟨htag, _⟩, hattributes⟩, hchildren⟩ := hproper
      -- The tree is read from its back, with the closing tag in front of the rest.
      have hclosed := scan_renderAll children hchildren (scan_closing htag h)
      have hopened := scan_opening htag hattributes hclosed
      rw [render, tokens]
      simpa only [String.toList_append, List.append_assoc, List.cons_append, List.nil_append]
        using hopened

theorem scan_renderAll : ∀ (ms : List Markup) {rest : List Char} {ts : List Token},
    allProper ms = true → Text.scan token? rest = some ts →
    Text.scan token? ((renderAll ms).toList ++ rest) = some (allTokens ms ++ ts)
  | [], rest, ts, _, h => by
      rw [renderAll, allTokens]
      exact h
  | m :: ms, rest, ts, hproper, h => by
      obtain ⟨hm, hms⟩ := Bool.and_eq_true_iff.mp hproper
      rw [renderAll, allTokens, String.toList_append, List.append_assoc, List.append_assoc]
      exact scan_render m hm (scan_renderAll ms hms h)

end

theorem foldlM_letters (s : List Char) (p : Progress) :
    (s.map Token.letter).foldlM add p = some ⟨p.begun, p.here ++ s.map .letter⟩ := by
  induction s generalizing p with
  | nil => rw [List.map_nil, List.map_nil, List.append_nil]; rfl
  | cons c s ih =>
      rw [List.map_cons, List.foldlM_cons, add, Option.bind_eq_bind, Option.bind_some, ih]
      simp only [List.map_cons, List.append_assoc, List.singleton_append]

mutual

/-- The tokens of a tree are put together to the content of it, in whatever they stand. -/
theorem foldlM_tokens : ∀ (m : Markup) (p : Progress), m.proper = true →
    m.tokens.foldlM add p = some ⟨p.begun, p.here ++ m.nodes⟩
  | text s, p, _ => by
      rw [tokens, nodes]
      exact foldlM_letters s.toList p
  | void tag attributes, p, hproper => by
      simp only [proper, Bool.and_eq_true, List.contains_iff_mem] at hproper
      rw [tokens, nodes, List.foldlM_cons, add, if_pos hproper.1.2]
      rfl
  | element tag attributes children, p, hproper => by
      simp only [proper, Bool.and_eq_true, Bool.not_eq_true', ← Bool.not_eq_true,
        List.contains_iff_mem] at hproper
      obtain ⟨⟨⟨_, htag⟩, _⟩, hchildren⟩ := hproper
      -- The content is collected at a level of its own, which the closing tag ends.
      rw [tokens, nodes, List.foldlM_cons, add, if_neg htag, Option.bind_eq_bind, Option.bind_some,
        List.foldlM_append, foldlM_allTokens children _ hchildren, Option.bind_eq_bind,
        Option.bind_some, List.foldlM_cons, add]
      simp only [List.nil_append, if_true]
      rfl

theorem foldlM_allTokens : ∀ (ms : List Markup) (p : Progress), allProper ms = true →
    (allTokens ms).foldlM add p = some ⟨p.begun, p.here ++ allNodes ms⟩
  | [], p, _ => by
      rw [allTokens, allNodes, List.append_nil]
      rfl
  | m :: ms, p, hproper => by
      obtain ⟨hm, hms⟩ := Bool.and_eq_true_iff.mp hproper
      rw [allTokens, allNodes, List.foldlM_append, foldlM_tokens m p hm, Option.bind_eq_bind,
        Option.bind_some, foldlM_allTokens ms _ hms, List.append_assoc]

end

end Markup

end MapStyling
