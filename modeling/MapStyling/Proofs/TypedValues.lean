import MapStyling.Proofs.Agreement

/-!
# Values of the Kind of Their Key

What an evaluation for a key can come to, on every engine.

The table of keys says of what kind each is, and the readers of results are sorted by
what the script hands back: a text, a truth value, a number or an array. Each of them
looks at the key on its own. They agree with the table all the same, so whoever asks for
a key and finds a value can rely on its variant.

No law of engines is needed for this. An engine decides which texts and numbers are read,
and no text or number of all that it could hand back is read as a value of a wrong kind.

## Main definitions

* `StyleValue.OfKind`: Values of a kind, one variant for each.
* `StyleValue.Fits`: Values of a kind, or no value.

## Theorems

* `StyleKey.fits_read`: Every text is read as the kind of the key asks.
* `Decoding.fits_decodeText`, `Decoding.fits_decodeTruth`, `Decoding.fits_decodeNumber`,
  `Decoding.fits_decodeArray`: The same for results, by their kind.
* `decoded_as_kind`: The same for all results, and for evaluations.
-/

namespace MapStyling

namespace StyleValue

/-- Values of a kind. -/
inductive OfKind : KeyKind → StyleValue → Prop
  | text (s : String) : OfKind .text (.text s)
  | flag (b : Bool) : OfKind .flag (.flag b)
  | extrusion (low high : Float32) : OfKind .extrusion (.pair low high)
  | color (c : Color) : OfKind .color (.color c)
  | width (unit : MeasureUnit) (w : Width) : OfKind (.width unit) (.width w)
  | size (s : Size) : OfKind .size (.size s)
  | offset (x y : Float32) : OfKind .offset (.pair x y)
  | word (n : UInt32) : OfKind .word (.word n)
  | number (v : Float32) : OfKind .number (.number v)

/-- Values of a kind, or none. The undefined value is not among them. -/
def Fits (k : KeyKind) (v : StyleValue) : Prop := v = none ∨ OfKind k v

theorem Fits.ne_undefined {k : KeyKind} {v : StyleValue} (h : Fits k v) : v ≠ undefined := by
  rintro rfl
  rcases h with h | h <;> cases h

theorem isNone_iff {v : StyleValue} : v.isNone = true ↔ v = none := by
  cases v <;> simp [isNone]

end StyleValue

open StyleValue (OfKind Fits)

/-- An action whose answer has a property in every state. -/
def Gives {σ α : Type} (P : α → Prop) (action : StateM σ α) : Prop := ∀ e, P (action.run e).1

namespace Gives

variable {σ α β : Type} {P : α → Prop}

theorem pure {a : α} (h : P a) : Gives P (Pure.pure a : StateM σ α) := fun _ => h

theorem bind {action : StateM σ β} {f : β → StateM σ α} (h : ∀ b, Gives P (f b)) :
    Gives P (action >>= f) :=
  fun e => h (action.run e).1 (action.run e).2

end Gives

theorem ofKind_extrusionOfFlag (b : Bool) : OfKind .extrusion (extrusionOfFlag b) := by
  cases b
  · exact .extrusion _ _
  · exact .extrusion _ _

theorem ofKind_of_readExtrusion {input : List Char} {v : StyleValue}
    (h : readExtrusion input = .ok v) : OfKind .extrusion v := by
  unfold readExtrusion at h
  split at h
  · injection h with h
    exact h ▸ ofKind_extrusionOfFlag _
  · rcases hlist : Dimension.readList input with e | ds
    · rw [hlist] at h
      cases h
    · rw [hlist] at h
      -- One height, two heights, or a list that is no extrusion.
      match ds, h with
      | [_], h => cases h; exact .extrusion _ _
      | [_, _], h => cases h; exact .extrusion _ _
      | [], h => cases h
      | _ :: _ :: _ :: _, h => cases h

theorem ofKind_of_readOffset {allowOne : Bool} {input : List Char} {v : StyleValue}
    (h : readOffset allowOne input = .ok v) : OfKind .offset v := by
  unfold readOffset at h
  rcases hlist : Dimension.readList input with e | ds
  · rw [hlist] at h
    cases h
  · rw [hlist] at h
    match ds, allowOne, h with
    | [_, _], _, h => cases h; exact .offset _ _
    | [_], true, h => cases h; exact .offset _ _
    | [_], false, h => cases h
    | [], _, h => cases h
    | _ :: _ :: _ :: _, _, h => cases h

/-- A reading that is put into a variant is of this variant. -/
theorem ofKind_of_map {α : Type} {k : KeyKind} {make : α → StyleValue}
    {reading : Except ReadError α} {v : StyleValue} (hmake : ∀ a, OfKind k (make a))
    (h : reading.map make = .ok v) : OfKind k v := by
  cases reading with
  | error e => cases h
  | ok a => cases h; exact hmake a

namespace StyleKey

/-- A text that is read for a key is read as a value of its kind. -/
theorem ofKind_of_read? {key : StyleKey} {input : String} {v : StyleValue}
    (h : key.read? input = .ok v) : OfKind key.kind v := by
  unfold read? at h
  cases hk : key.kind with
  | text => rw [hk] at h; cases h; exact .text input
  | flag => rw [hk] at h; exact ofKind_of_map .flag h
  | extrusion => rw [hk] at h; exact ofKind_of_readExtrusion h
  | color => rw [hk] at h; exact ofKind_of_map .color h
  | width unit => rw [hk] at h; exact ofKind_of_map (.width unit) h
  | size => rw [hk] at h; exact ofKind_of_map .size h
  | offset => rw [hk] at h; exact ofKind_of_readOffset h
  | word => rw [hk] at h; exact ofKind_of_map .word h
  | number => rw [hk] at h; exact ofKind_of_map (fun _ => .number _) h

theorem fits_read (key : StyleKey) (input : String) : Fits key.kind (key.read input) := by
  unfold read
  split
  · next h => exact Or.inr (ofKind_of_read? h)
  · exact Or.inl rfl

end StyleKey

namespace Decoding

theorem kind_of_color {key : StyleKey} (h : colorKeys.contains key = true) : key.kind = .color := by
  rw [contains_colorKeys] at h
  exact of_decide_eq_true h

theorem kind_of_verbatim {key : StyleKey} (h : verbatimKeys.contains key = true) :
    key.kind = .text := by
  have hall : ∀ key ∈ verbatimKeys, key.kind = .text := by decide
  exact hall key (List.contains_iff_mem.mp h)

theorem fits_decodeText (key : StyleKey) (s : String) : Fits key.kind (decodeText key s) := by
  unfold decodeText
  -- Three readers look at a key here, and each knows its kind.
  by_cases hv : verbatimKeys.contains key = true
  · rw [if_pos hv, kind_of_verbatim hv]
    exact Or.inr (.text s)
  · rw [if_neg hv]
    by_cases hc : colorKeys.contains key = true
    · rw [if_pos hc, kind_of_color hc]
      split
      · exact Or.inr (.color _)
      · exact Or.inl rfl
    · rw [if_neg hc]
      exact key.fits_read s

theorem fits_decodeTruth (key : StyleKey) (b : Bool) : Fits key.kind (decodeTruth key b) := by
  cases key with
  | interactive | textInteractive | visible => exact Or.inr (.flag b)
  | extrude => exact Or.inr (ofKind_extrusionOfFlag b)
  | _ => exact Or.inl rfl

theorem fits_decodeNumber (key : StyleKey) (v : Float) : Fits key.kind (decodeNumber key v) := by
  cases key with
  | textSource | textSourceLeft | textSourceRight => exact Or.inr (.text _)
  | extrude => exact Or.inr (.extrusion _ _)
  | placementSpacing | width | outlineWidth => exact Or.inr (.width _ _)
  | angle | textFontStrokeWidth | placementMinLengthRatio => exact Or.inr (.number _)
  | size => exact Or.inr (.size _)
  | order | outlineOrder | priority => exact Or.inr (.word _)
  | color | outlineColor | textFontFill | textFontStrokeColor => exact Or.inr (.color _)
  | _ => exact Or.inl rfl

variable {σ : Type} [Engine σ]

/-- Whatever the elements are, as many as make an extrusion or a color make one. -/
theorem fits_decodeArray (key : StyleKey) (array : Handle) :
    Gives (Fits key.kind) (decodeArray key array : StateM σ StyleValue) := by
  unfold decodeArray
  refine .bind fun e => ?_
  generalize Engine.length e array = length
  dsimp only
  by_cases hext : key = .extrude
  · subst hext
    rw [if_pos rfl]
    split
    · exact .pure (Or.inl rfl)
    · exact .bind fun low => .bind fun high => .pure (Or.inr (.extrusion _ _))
  · rw [if_neg hext]
    by_cases hc : colorKeys.contains key = true
    · rw [if_pos hc, kind_of_color hc]
      split
      · exact .pure (Or.inl rfl)
      · refine .bind fun red => .bind fun green => .bind fun blue => ?_
        -- With three elements there is no fourth to ask for.
        split
        · exact .bind fun alpha => .pure (Or.inr (.color _))
        · exact .pure (Or.inr (.color _))
    · rw [if_neg hc]
      exact .pure (Or.inl rfl)

/-- A result is read by its kind. -/
theorem run_decode (key : StyleKey) (h : Handle) (e : σ) :
    (decode key h).run e = (match Engine.kind e h with
      | .string => do return decodeText key (← Engine.text h)
      | .boolean => return decodeTruth key (Engine.truth e h)
      | .array => decodeArray key h
      | .number => do return decodeNumber key (← Engine.number h)
      | .undefined => return .undefined
      | .null | .object | .function => return .none : StateM σ StyleValue).run e := by
  unfold decode
  rw [run_bind_state, run_get_state]
  cases Engine.kind e h <;> rfl

/-- A result that is not the undefined value is a value of the kind of the key, or none. -/
theorem fits_decode (key : StyleKey) {h : Handle} {e : σ} (hkind : Engine.kind e h ≠ .undefined) :
    Fits key.kind ((decode key h).run e).1 := by
  rw [run_decode]
  cases hk : Engine.kind e h with
  | string => exact Gives.bind (fun s => .pure (fits_decodeText key s)) e
  | boolean => exact fits_decodeTruth key (Engine.truth e h)
  | array => exact fits_decodeArray key h e
  | number => exact Gives.bind (fun v => .pure (fits_decodeNumber key v)) e
  | undefined => exact absurd hk hkind
  | null | object | function => exact Or.inl rfl

theorem decode_of_undefined (key : StyleKey) {h : Handle} {e : σ}
    (hkind : Engine.kind e h = .undefined) : ((decode key h).run e).1 = .undefined := by
  rw [run_decode, hkind]
  rfl

/-- The undefined value comes of the undefined value and of nothing else. -/
theorem decode_eq_undefined_iff (key : StyleKey) (h : Handle) (e : σ) :
    ((decode key h).run e).1 = .undefined ↔ Engine.kind e h = .undefined := by
  refine ⟨fun hv => ?_, decode_of_undefined key⟩
  by_cases hkind : Engine.kind e h = .undefined
  · exact hkind
  · exact absurd hv (fits_decode key hkind).ne_undefined

end Decoding

/-- What comes of a call for a key: the value of its result, or none where it fails. -/
def valueOfCall {σ : Type} [Engine σ] (key : StyleKey) : Except ScriptFault Handle × σ → StyleValue
  | (.ok h, e) => ((Decoding.decode key h).run e).1
  | (.error _, _) => .none

theorem Session.run_evalStyle_fst {σ : Type} [Engine σ] (index : Nat) (key : StyleKey)
    (s : Session σ) :
    ((evalStyle index key).run s).1 = valueOfCall key ((Engine.call index).run s.engine) := by
  have hrun : ∀ action : StateM σ StyleValue,
      ((run (Engine.inScope action)).run s).1 = (action.run s.engine).1 := fun _ => rfl
  rw [evalStyle, hrun, run_bind_state]
  rcases (Engine.call index).run s.engine with ⟨r, e⟩
  cases r <;> rfl

/-- A result is a value of the kind of the key that it is read for, or none, or undefined,
    and undefined is what an undefined value is read as and nothing else. An evaluation into
    a variable leaves in it what the result of the call is read as, whatever it held, and
    tells whether that is a value. -/
theorem decoded_as_kind {σ : Type} [Engine σ] (key : StyleKey) :
    (∀ (h : Handle) (e : σ),
      let value := ((Decoding.decode key h).run e).1
      (value = .none ∨ value = .undefined ∨ OfKind key.kind value) ∧
        (value = .undefined ↔ Engine.kind e h = .undefined)) ∧
      ∀ (index : Nat) (held : StyleValue) (s : Session σ),
        let evaluated := (StyleBackend.storeStyle index key).run (held, s)
        (evaluated.1 = true ↔ evaluated.2.1 ≠ .none) ∧
          evaluated.2.1 = valueOfCall key ((Engine.call index).run s.engine) ∧
          (evaluated.2.1 = .none ∨ evaluated.2.1 = .undefined ∨ OfKind key.kind evaluated.2.1) ∧
          ∀ other : StyleValue, (StyleBackend.storeStyle index key).run (other, s) = evaluated := by
  have hdecoded : ∀ (h : Handle) (e : σ),
      ((Decoding.decode key h).run e).1 = .none ∨ ((Decoding.decode key h).run e).1 = .undefined ∨
        OfKind key.kind ((Decoding.decode key h).run e).1 := by
    intro h e
    by_cases hkind : Engine.kind e h = .undefined
    · exact Or.inr (Or.inl (Decoding.decode_of_undefined key hkind))
    · exact (Decoding.fits_decode key hkind).imp_right Or.inr
  refine ⟨fun h e => ⟨hdecoded h e, Decoding.decode_eq_undefined_iff key h e⟩, ?_⟩
  intro index held s evaluated
  have hstored : evaluated.2.1 = valueOfCall key ((Engine.call index).run s.engine) :=
    Session.run_evalStyle_fst index key s
  refine ⟨?_, hstored, ?_, fun other => rfl⟩
  · change (!evaluated.2.1.isNone) = true ↔ _
    rw [Bool.not_eq_true', ← Bool.not_eq_true, StyleValue.isNone_iff]
  · rw [hstored]
    -- A call that fails leaves no value, and every other one has a result that is read.
    rcases (Engine.call index).run s.engine with ⟨r, e⟩
    cases r with
    | ok h => exact hdecoded h e
    | error fault => exact Or.inl rfl

end MapStyling
