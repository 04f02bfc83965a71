import MapStyling.Proofs.Extents
import MapStyling.Proofs.Flags
import MapStyling.Proofs.TypedValues

/-!
# Measures

What texts of widths, sizes, offsets and extrusions come to.

All of these are lists of dimensions, and what a list may look like is said once and for all of
them. Here is what is made of the dimensions in it: how many there have to be, in which unit a
bare number is, and which numbers are let through. Only an extrusion may be something else,
one of the two words of a flag, and a word is no list.

## Main definitions

* `StyleValue.HasExtents`: Values with such numbers where they are asked for.
* `Dimension.Measures`: What is made of the dimensions of a list.
* `StyleKey.Spelled`: What is made of a text.

## Theorems

* `StyleKey.read?_eq_ok_iff`: What is read for a parameter with dimensions, and from which texts.
* `StyleKey.read_of_measure`: The value of such a parameter, and the numbers of widths and
  sizes.
-/

namespace MapStyling

/-- A computation succeeds if its steps do. -/
theorem bind_eq_ok_iff {ε α β : Type} {first : Except ε α} {next : α → Except ε β} {b : β} :
    first >>= next = .ok b ↔ ∃ a, first = .ok a ∧ next a = .ok b := by
  cases first with
  | error e => exact ⟨fun h => (by cases h), fun ⟨_, h, _⟩ => (by cases h)⟩
  | ok a =>
      constructor
      · exact fun h => ⟨a, rfl, h⟩
      · rintro ⟨_, ⟨⟩, h⟩
        exact h

theorem map_eq_ok_iff {ε α β : Type} {first : Except ε α} {f : α → β} {b : β} :
    first.map f = .ok b ↔ ∃ a, first = .ok a ∧ f a = b := by
  cases first with
  | error e => exact ⟨fun h => (by cases h), fun ⟨_, h, _⟩ => (by cases h)⟩
  | ok a =>
      constructor
      · rintro ⟨⟩
        exact ⟨a, rfl, rfl⟩
      · rintro ⟨_, ⟨⟩, rfl⟩
        rfl

namespace Dimension

/-- The number of a dimension. -/
def single (d : Dimension) : Float32 := Double.toSingle d.value

/-- A dimension with the unit of its own or with the given one. -/
def width (d : Dimension) (unit : MeasureUnit) : Width := ⟨d.single, d.unit.getD unit⟩

theorem toWidth_eq_ok_iff {d : Dimension} {what : String} {unit : MeasureUnit} {w : Width} :
    d.toWidth what unit = .ok w ↔ Single.IsExtent d.single ∧ w = d.width unit := by
  rw [toWidth, width, single, ← Width.ofNumber_eq_ok_iff]
  cases Width.ofNumber (Double.toSingle d.value) (d.unit.getD unit) with
  | error e => exact ⟨fun h => (by cases h), fun h => (by cases h)⟩
  | ok w' => exact ⟨fun h => (by cases h; rfl), fun h => (by cases h; rfl)⟩

theorem toWidth_of_extent {d : Dimension} {what : String} {unit : MeasureUnit}
    (h : Single.IsExtent d.single) : d.toWidth what unit = .ok (d.width unit) :=
  toWidth_eq_ok_iff.mpr ⟨h, rfl⟩

/-- What is made of the dimensions of a list, for a kind of parameters. The buffer is the one
    offset for which a number may stand for two. -/
inductive Measures (buffer : Bool) : KeyKind → List Dimension → StyleValue → Prop
  | width {unit : MeasureUnit} {d : Dimension} (extent : Single.IsExtent d.single) :
      Measures buffer (.width unit) [d] (.width (d.width unit))
  | oneSize {x : Dimension} (extent : Single.IsExtent x.single) :
      Measures buffer .size [x] (.size ⟨x.width .pixel, .pixels Single.zero⟩)
  | twoSizes {x y : Dimension} (extent : Single.IsExtent x.single)
      (extent' : Single.IsExtent y.single) :
      Measures buffer .size [x, y] (.size ⟨x.width .pixel, y.width .pixel⟩)
  | offset {x y : Dimension} : Measures buffer .offset [x, y] (.pair x.single y.single)
  | twice {v : Dimension} (only : buffer = true) :
      Measures buffer .offset [v] (.pair v.single v.single)
  | height {h : Dimension} : Measures buffer .extrusion [h] (.pair Single.zero h.single)
  | heights {low high : Dimension} :
      Measures buffer .extrusion [low, high] (.pair low.single high.single)

variable {input : List Char} {v : StyleValue} {buffer : Bool}

theorem readWidth_eq_ok_iff {unit : MeasureUnit} :
    (readWidth unit input).map StyleValue.width = .ok v
      ↔ ∃ ds, readList input = .ok ds ∧ Measures buffer (.width unit) ds v := by
  rw [map_eq_ok_iff, readWidth]
  simp only [bind_eq_ok_iff]
  constructor
  · rintro ⟨w, ⟨ds, hlist, h⟩, rfl⟩
    refine ⟨ds, hlist, ?_⟩
    match ds, h with
    | [d], h =>
      obtain ⟨hextent, rfl⟩ := toWidth_eq_ok_iff.mp h
      exact .width hextent
    | [], h => cases h
    | _ :: _ :: _, h => cases h
  · rintro ⟨ds, hlist, hv⟩
    cases hv with
    | width hextent => exact ⟨_, ⟨_, hlist, toWidth_of_extent hextent⟩, rfl⟩

theorem readSize_eq_ok_iff : (readSize input).map StyleValue.size = .ok v
    ↔ ∃ ds, readList input = .ok ds ∧ Measures buffer .size ds v := by
  rw [map_eq_ok_iff, readSize]
  simp only [bind_eq_ok_iff]
  constructor
  · rintro ⟨z, ⟨ds, hlist, h⟩, rfl⟩
    refine ⟨ds, hlist, ?_⟩
    -- One size, two sizes, or a list that is none.
    match ds, h with
    | [x], h =>
      obtain ⟨w, hx, hz⟩ := bind_eq_ok_iff.mp h
      obtain ⟨hextent, rfl⟩ := toWidth_eq_ok_iff.mp hx
      cases hz
      exact .oneSize hextent
    | [x, y], h =>
      obtain ⟨w, hx, h⟩ := bind_eq_ok_iff.mp h
      obtain ⟨w', hy, hz⟩ := bind_eq_ok_iff.mp h
      obtain ⟨hextent, rfl⟩ := toWidth_eq_ok_iff.mp hx
      obtain ⟨hextent', rfl⟩ := toWidth_eq_ok_iff.mp hy
      cases hz
      exact .twoSizes hextent hextent'
    | [], h => cases h
    | _ :: _ :: _ :: _, h => cases h
  · rintro ⟨ds, hlist, hv⟩
    cases hv with
    | oneSize hextent =>
        exact ⟨_, ⟨_, hlist, bind_eq_ok_iff.mpr ⟨_, toWidth_of_extent hextent, rfl⟩⟩, rfl⟩
    | twoSizes hextent hextent' =>
        exact ⟨_, ⟨_, hlist, bind_eq_ok_iff.mpr ⟨_, toWidth_of_extent hextent,
          bind_eq_ok_iff.mpr ⟨_, toWidth_of_extent hextent', rfl⟩⟩⟩, rfl⟩

theorem readOffset_eq_ok_iff : readOffset buffer input = .ok v
    ↔ ∃ ds, readList input = .ok ds ∧ Measures buffer .offset ds v := by
  rw [readOffset]
  simp only [bind_eq_ok_iff]
  refine exists_congr fun ds => and_congr_right fun _ => ?_
  constructor
  · intro h
    match ds, buffer, h with
    | [x, y], _, h => cases h; exact .offset
    | [d], true, h => cases h; exact .twice rfl
    | [d], false, h => cases h
    | [], _, h => cases h
    | _ :: _ :: _ :: _, _, h => cases h
  · intro h
    cases h with
    | offset => rfl
    | twice honly => subst honly; rfl

/-- An extrusion is a word, or it is a list. -/
theorem readExtrusion_eq_ok_iff : readExtrusion input = .ok v
    ↔ (∃ b, readFlag input = .ok b ∧ v = extrusionOfFlag b) ∨
      (∀ b, readFlag input ≠ .ok b) ∧
        ∃ ds, readList input = .ok ds ∧ Measures buffer .extrusion ds v := by
  unfold readExtrusion
  rcases readFlag input with e | b
  · -- No word, so nothing is left but a list.
    simp only [reduceCtorEq, false_and, exists_false, ne_eq, not_false_eq_true, implies_true,
      true_and, false_or, bind_eq_ok_iff]
    refine exists_congr fun ds => and_congr_right fun _ => ?_
    constructor
    · intro h
      match ds, h with
      | [d], h => cases h; exact .height
      | [low, high], h => cases h; exact .heights
      | [], h => cases h
      | _ :: _ :: _ :: _, h => cases h
    · intro h
      cases h with
      | height => rfl
      | heights => rfl
  · constructor
    · rintro ⟨⟩
      exact Or.inl ⟨b, rfl, rfl⟩
    · rintro (⟨_, ⟨⟩, rfl⟩ | ⟨h, _⟩)
      · rfl
      · exact absurd rfl (h b)

end Dimension

/-- Widths and sizes with numbers that they may have, and all other values. -/
def StyleValue.HasExtents : StyleValue → Prop
  | .width w => Single.IsExtent w.value
  | .size z => Single.IsExtent z.x.value ∧ Single.IsExtent z.y.value
  | _ => True

theorem Dimension.Measures.hasExtents {buffer : Bool} {kind : KeyKind} {ds : List Dimension}
    {v : StyleValue} (h : Dimension.Measures buffer kind ds v) : v.HasExtents := by
  cases h with
  | width hextent => exact hextent
  | oneSize hextent => exact ⟨hextent, Single.isExtent_zero⟩
  | twoSizes hextent hextent' => exact ⟨hextent, hextent'⟩
  | offset | twice | height | heights => trivial

/-- Kinds of parameters whose texts are lists of dimensions. -/
def KeyKind.isMeasure : KeyKind → Bool
  | .width _ | .size | .offset | .extrusion => true
  | _ => false

namespace StyleKey

/-- What is made of a text for a parameter with dimensions: one of two words where it is an
    extrusion, and otherwise what is made of the dimensions in it. -/
inductive Spelled (key : StyleKey) (s : String) : StyleValue → Prop
  | unbounded (kind : key.kind = .extrusion) (word : Text.trim s.toList = "true".toList) :
      Spelled key s (.pair Single.nan Single.nan)
  | flat (kind : key.kind = .extrusion) (word : Text.trim s.toList = "false".toList) :
      Spelled key s (.pair Single.zero Single.zero)
  | list {ds : List Dimension} {v : StyleValue}
      (noWord : key.kind = .extrusion →
        Text.trim s.toList ≠ "true".toList ∧ Text.trim s.toList ≠ "false".toList)
      (list : Dimension.readList s.toList = .ok ds)
      (measures : Dimension.Measures (key = .buffer) key.kind ds v) : Spelled key s v

variable {key : StyleKey} {s : String} {v : StyleValue}

theorem spelled_iff_of_ne (h : key.kind ≠ .extrusion) : Spelled key s v ↔
    ∃ ds, Dimension.readList s.toList = .ok ds ∧
      Dimension.Measures (key = .buffer) key.kind ds v := by
  constructor
  · intro hs
    cases hs with
    | unbounded hkind _ => exact absurd hkind h
    | flat hkind _ => exact absurd hkind h
    | list _ hlist hmeasures => exact ⟨_, hlist, hmeasures⟩
  · rintro ⟨ds, hlist, hmeasures⟩
    exact .list (fun hkind => absurd hkind h) hlist hmeasures

theorem spelled_iff_of_eq (h : key.kind = .extrusion) : Spelled key s v ↔
    (∃ b, readFlag s.toList = .ok b ∧ v = extrusionOfFlag b) ∨
      (∀ b, readFlag s.toList ≠ .ok b) ∧ ∃ ds, Dimension.readList s.toList = .ok ds ∧
        Dimension.Measures (key = .buffer) .extrusion ds v := by
  simp only [readFlag_eq_ok_iff, ne_eq]
  -- A flag is tried first, and the list only where there is none.
  constructor
  · intro hs
    cases hs with
    | unbounded _ hword => exact Or.inl ⟨true, hword, rfl⟩
    | flat _ hword => exact Or.inl ⟨false, hword, rfl⟩
    | list hnone hlist hmeasures =>
        refine Or.inr ⟨fun b => ?_, _, hlist, h ▸ hmeasures⟩
        cases b with
        | true => exact (hnone h).1
        | false => exact (hnone h).2
  · rintro (⟨b, hword, rfl⟩ | ⟨hnone, ds, hlist, hmeasures⟩)
    · cases b with
      | true => exact .unbounded h hword
      | false => exact .flat h hword
    · exact .list (fun _ => ⟨hnone true, hnone false⟩) hlist (h ▸ hmeasures)

/-- What is read for a parameter with dimensions, and from which texts. -/
theorem read?_eq_ok_iff (hkey : key.kind.isMeasure = true) :
    key.read? s = .ok v ↔ Spelled key s v := by
  rw [read?]
  -- Only extrusions have words besides their dimensions.
  cases hk : key.kind with
  | width unit =>
      rw [spelled_iff_of_ne (by rw [hk]; exact KeyKind.noConfusion), hk]
      exact Dimension.readWidth_eq_ok_iff
  | size =>
      rw [spelled_iff_of_ne (by rw [hk]; exact KeyKind.noConfusion), hk]
      exact Dimension.readSize_eq_ok_iff
  | offset =>
      rw [spelled_iff_of_ne (by rw [hk]; exact KeyKind.noConfusion), hk]
      exact Dimension.readOffset_eq_ok_iff
  | extrusion =>
      rw [spelled_iff_of_eq hk]
      exact Dimension.readExtrusion_eq_ok_iff
  | text | flag | color | word | number => rw [hk] at hkey; cases hkey

theorem Spelled.hasExtents (h : Spelled key s v) : v.HasExtents := by
  cases h with
  | unbounded => trivial
  | flat => trivial
  | list _ _ hmeasures => exact hmeasures.hasExtents

/-- Other parameters have neither widths nor sizes. -/
theorem hasExtents_of_ofKind {kind : KeyKind} (hkind : kind.isMeasure = false)
    (h : StyleValue.OfKind kind v) : v.HasExtents := by
  cases h with
  | width | size => cases hkind
  | _ => trivial

theorem hasExtents_read (key : StyleKey) (s : String) : (key.read s).HasExtents := by
  rw [read]
  cases hread : key.read? s with
  | error e => trivial
  | ok v =>
      cases hkey : key.kind.isMeasure with
      | true => exact ((read?_eq_ok_iff hkey).mp hread).hasExtents
      | false => exact hasExtents_of_ofKind hkey (ofKind_of_read? hread)

/-- **The value of a parameter with dimensions** is what is made of its text: a word where the
    parameter is an extrusion, or the dimensions of a list. If nothing is made of the text there
    is no value. And whatever the text and the parameter, the number of a width and both numbers
    of a size are finite and not below zero. -/
theorem read_of_measure (s : String) :
    (∀ key : StyleKey, key.kind.isMeasure = true → ∀ v,
      key.read s = v ↔ Spelled key s v ∨ v = .none ∧ ∀ v', ¬Spelled key s v') ∧
    ∀ key : StyleKey, (key.read s).HasExtents := by
  refine ⟨fun key hkey v => ?_, fun key => hasExtents_read key s⟩
  rw [read]
  -- The reader decides: what it reads is spelled, and what it does not read is not.
  cases hread : key.read? s with
  | ok v' =>
      have hspelled := (read?_eq_ok_iff hkey).mp hread
      constructor
      · rintro rfl
        exact Or.inl hspelled
      · rintro (hv | ⟨_, hnone⟩)
        · exact Except.ok.inj (hread.symm.trans ((read?_eq_ok_iff hkey).mpr hv))
        · exact absurd hspelled (hnone v')
  | error e =>
      have hnone : ∀ v', ¬Spelled key s v' := fun v' hv' => by
        rw [← read?_eq_ok_iff hkey, hread] at hv'
        cases hv'
      constructor
      · rintro rfl
        exact Or.inr ⟨rfl, hnone⟩
      · rintro (hv | ⟨rfl, _⟩)
        · exact absurd hv (hnone v)
        · rfl

/-- Two sizes, the first one with its unit. -/
theorem read_of_measure_twoSizes :
    StyleKey.size.kind.isMeasure = true ∧ StyleKey.size.read "[2px, 3]"
      = .size ⟨.pixels (.ofBits 0x40000000), .pixels (.ofBits 0x40400000)⟩ := by
  have hlist : Dimension.readList "[2px, 3]".toList
      = .ok [⟨.ofBits 0x4000000000000000, some .pixel⟩, ⟨.ofBits 0x4008000000000000, none⟩] := rfl
  have hx : Double.toSingle (.ofBits 0x4000000000000000) = .ofBits 0x40000000 := by decide
  have hy : Double.toSingle (.ofBits 0x4008000000000000) = .ofBits 0x40400000 := by decide
  have hmeasures : Dimension.Measures false .size
      [⟨.ofBits 0x4000000000000000, some .pixel⟩, ⟨.ofBits 0x4008000000000000, none⟩]
      (.size ⟨.pixels (.ofBits 0x40000000), .pixels (.ofBits 0x40400000)⟩) := by
    rw [← hx, ← hy]
    refine .twoSizes ?_ ?_
    · exact Single.isExtent_of_datum (m := 8388608) (e := -22) (by decide)
    · exact Single.isExtent_of_datum (m := 12582912) (e := -22) (by decide)
  refine ⟨rfl, ((read_of_measure "[2px, 3]").1 .size rfl _).mpr (Or.inl ?_)⟩
  exact .list (fun h => by cases h) hlist hmeasures

-- Too large for a single, and a sign in front of nothing.
example : StyleKey.width.read "1e39" = .none := by decide

example : StyleKey.width.read "-0" ≠ .none := by decide

end StyleKey

end MapStyling
