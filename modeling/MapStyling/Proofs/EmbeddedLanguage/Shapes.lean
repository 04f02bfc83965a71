import MapStyling.Engine.EmbeddedLanguage
import MapStyling.Proofs.Bags

/-!
# Shapes of Embedded Values

What an engine relies on in the values of its language.

A value that was made shows what it was made of. Maps show their entries in the order of
their names, and are made of entries in this order.

## Main definitions

* `EmbeddedLanguage.ShapeLaws`: Values show what they were made of.
-/

namespace MapStyling

/-- Values show what they were made of. -/
structure EmbeddedLanguage.ShapeLaws (L : EmbeddedLanguage) : Prop where
  unit : L.shape L.unit = .unit
  boolean : ∀ b, L.shape (L.ofBoolean b) = .boolean b
  number : ∀ v, L.shape (L.ofNumber v) = .number v
  text : ∀ s, L.shape (L.ofText s) = .text s
  array : ∀ items, L.shape (L.ofArray items) = .array items
  map : ∀ entries, Entries.Increasing entries → L.shape (L.ofMap entries) = .map entries
  increasing : ∀ v entries, L.shape v = .map entries → Entries.Increasing entries

end MapStyling
