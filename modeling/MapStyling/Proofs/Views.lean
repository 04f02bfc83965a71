import MapStyling.Proofs.Contents

/-!
# Views of Engines

Engines as far as building a tree is concerned, whether they copy values or share
them.

A view says what is on the stack of an engine and what its values look like from
the outside: an array shows its elements and an object its fields, and what these
look like is asked again. An engine that copies changes the value on its stack to
another one when it fills a container. An engine that shares leaves the value and
changes what it looks like. So the laws of a view say of a change that everything
known looks as it did, but for the container itself where values are shared.

A value denotes a content if it looks like it all the way down. This is not lost
while the values on the way are left alone, and that is why children are complete
before they are put into their parent: a container that is filled is known before
its children come to be, so no child is or holds the container.

## Main definitions

* `Look`: What a value looks like.
* `View`: What is seen of an engine.
* `View.Denotes`: Values that look like a content all the way down.
* `View.Pushed`, `View.Changed`: A new value, and a container that was changed.
* `View.Lawful`: Engines that do what they are asked for.
* `View.Built`: Values built for a tree.
* `View.Filled`, `View.Overlaid`: Arrays and objects that were given what they hold.

## Theorems

* `View.Denotes.mono`: Values denote what they did if they look as they did.
* `View.Lawful.built_pushNode`: A tree is built as a value that denotes it.
-/

namespace MapStyling

/-- What a value looks like, with the values `ν` that it holds. -/
inductive Look (ν φ : Type)
  | null
  | truth (b : Bool)
  | number (v : Float)
  | text (s : String)
  | function (f : φ)
  | array (items : List ν)
  | object (fields : String → Option ν)
  | other

namespace Look

variable {ν φ : Type}

/-- Arrays and objects. -/
def IsContainer : Look ν φ → Prop
  | array _ | object _ => True
  | _ => False

/-- Whether a value is one of those in a container. -/
def Holds (w : ν) : Look ν φ → Prop
  | array items => w ∈ items
  | object fields => ∃ name, fields name = some w
  | _ => False

theorem Holds.isContainer {w : ν} {l : Look ν φ} (h : l.Holds w) : l.IsContainer := by
  cases l with
  | array items => trivial
  | object fields => trivial
  | _ => exact h.elim

end Look

/-- What is seen of an engine with states `σ`, values `ν` and functions `φ`. -/
structure View (σ ν φ : Type) where
  /-- States that the engine can be in. -/
  Sound : σ → Prop
  /-- Values that have come into being. -/
  Known : σ → ν → Prop
  /-- Whether values are shared and not copied. -/
  shares : Prop
  stack : σ → List ν
  look : σ → ν → Look ν φ
  /-- What the global variable of a scene holds. -/
  global : σ → Option ν
  /-- The function of a source, if it compiles. -/
  made : σ → String → Option φ

namespace View

variable {σ ν φ : Type} (V : View σ ν φ)

/-- Values that look like a content all the way down, with a property that all values on
    the way have. -/
inductive Denotes (P : ν → Prop) (e : σ) : ν → Content φ → Prop
  | null {v : ν} : P v → V.look e v = .null → Denotes P e v .null
  | truth {v : ν} {b : Bool} : P v → V.look e v = .truth b → Denotes P e v (.truth b)
  | number {v : ν} {x : Float} : P v → V.look e v = .number x → Denotes P e v (.number x)
  | text {v : ν} {s : String} : P v → V.look e v = .text s → Denotes P e v (.text s)
  | function {v : ν} {f : φ} : P v → V.look e v = .function f → Denotes P e v (.function f)
  /-- As many elements, and each is what it should be. -/
  | array {v : ν} {items : List ν} {contents : List (Content φ)} : P v →
      V.look e v = .array items → items.length = contents.length →
      (∀ (i : Nat) (w : ν) (c : Content φ), items[i]? = some w → contents[i]? = some c →
        Denotes P e w c) → Denotes P e v (.array contents)
  /-- The fields that are named and no others, and each is what it should be. -/
  | object {v : ν} {get : String → Option ν} {fields : List (String × Content φ)} : P v →
      V.look e v = .object get →
      (∀ name, (get name).isSome = true ↔ name ∈ fields.map Prod.fst) →
      (∀ (name : String) (w : ν) (c : Content φ), get name = some w → (name, c) ∈ fields →
        Denotes P e w c) → Denotes P e v (.object fields)

/-- What is known and has a property is known still and looks as it did. -/
structure Keeps (P : ν → Prop) (e e' : σ) : Prop where
  sound : V.Sound e'
  known : ∀ y, V.Known e y → P y → V.Known e' y ∧ V.look e' y = V.look e y

/-- A value that is known, and for a shared container only since another state. -/
structure Fresh (e e' : σ) (y : ν) : Prop where
  known : V.Known e' y
  unknown : V.shares → (V.look e' y).IsContainer → ¬V.Known e y

/-- A fresh value other than the container that it is to be put into. -/
structure Apart (x : ν) (e e' : σ) (y : ν) : Prop extends V.Fresh e e' y where
  ne : V.shares → y ≠ x

/-- One value more on the stack, under the handle that is handed out. -/
structure Pushed (s : Look ν φ) (e : σ) (r : Handle × σ) : Prop where
  keeps : V.Keeps (fun _ => True) e r.2
  handle : r.1.index = (V.stack e).length
  value : ∃ v, V.stack r.2 = V.stack e ++ [v] ∧ V.look r.2 v = s ∧ V.Fresh e r.2 v

/-- A container that looks otherwise: a changed copy in its place, or the same container
    where values are shared. -/
structure Changed (s : Look ν φ) (a : Handle) (x : ν) (e e' : σ) : Prop where
  keeps : V.Keeps (fun y => V.shares → y ≠ x) e e'
  value : ∃ x' more, V.stack e' = (V.stack e).set a.index x' ++ more ∧ V.look e' x' = s ∧
    V.Known e' x' ∧ (V.shares → x' = x)

/-- What the global variable holds, and what is held by that. -/
inductive Reached (e : σ) : ν → Prop
  | global {v : ν} : V.global e = some v → Reached e v
  | held {y w : ν} : Reached e y → (V.look e y).Holds w → Reached e w

/-- Engines that do what they are asked for. A constructor pushes the value that it is
    asked for, a function that does not compile is not pushed, and a setter stores a value
    in its parent. Closing a scope takes the values in it from the stack, but what the
    global variable holds stays what it is. -/
structure Lawful [Engine σ] (asked : Asked) : Prop where
  known : ∀ e, V.Sound e → ∀ v ∈ V.stack e, V.Known e v
  pushNull : ∀ e, V.Sound e → V.Pushed .null e ((Engine.pushNull : StateM σ Handle).run e)
  pushBoolean : ∀ b e, V.Sound e →
    V.Pushed (.truth b) e ((Engine.pushBoolean b : StateM σ Handle).run e)
  pushNumber : ∀ x e, V.Sound e →
    V.Pushed (.number x) e ((Engine.pushNumber x : StateM σ Handle).run e)
  pushText : ∀ s e, V.Sound e →
    V.Pushed (.text s) e ((Engine.pushText s : StateM σ Handle).run e)
  pushArray : ∀ e, V.Sound e →
    V.Pushed (.array []) e ((Engine.pushArray : StateM σ Handle).run e)
  pushObject : ∀ e, V.Sound e →
    V.Pushed (.object fun _ => none) e ((Engine.pushObject : StateM σ Handle).run e)
  pushFunction : ∀ source f e, asked.sources source → V.Sound e → V.made e source = some f →
    ∃ r, (Engine.pushFunction source : StateM σ (Except ScriptFault Handle)).run e
        = (.ok r.1, r.2) ∧
      V.Pushed (.function f) e r
  pushFunction_fails : ∀ source e, asked.sources source → V.Sound e → V.made e source = none →
    ∃ fault e', (Engine.pushFunction source : StateM σ (Except ScriptFault Handle)).run e
        = (.error fault, e') ∧
      V.stack e' = V.stack e ∧ V.Keeps (fun _ => True) e e'
  setElement : ∀ (a v : Handle) (x w : ν) (items : List ν) e, V.Sound e →
    asked.positions items.length → (V.stack e)[a.index]? = some x →
    V.look e x = .array items → (V.stack e)[v.index]? = some w →
    V.Changed (.array (items ++ [w])) a x e
      ((Engine.setElement a items.length v : StateM σ Unit).run e).2
  setField : ∀ (o v : Handle) (x w : ν) (get : String → Option ν) (name : String) e,
    V.Sound e → asked.names name → (V.stack e)[o.index]? = some x →
    V.look e x = .object get → (V.stack e)[v.index]? = some w →
    V.Changed (.object fun n => if n = name then some w else get n) o x e
      ((Engine.setField o name v : StateM σ Unit).run e).2
  setGlobal : ∀ (a : Handle) (v : ν) e, V.Sound e → (V.stack e)[a.index]? = some v →
    let e' := ((Engine.setGlobal globalName a : StateM σ Unit).run e).2
    V.stack e' = V.stack e ∧ V.global e' = some v ∧ V.Keeps (fun _ => True) e e'
  reset : ∀ e e', V.Sound e → V.Keeps (fun _ => True) e e' → V.stack e <+: V.stack e' →
    let e'' := ((Engine.reset (Engine.mark e) : StateM σ Unit).run e').2
    V.stack e'' = V.stack e ∧ V.global e'' = V.global e' ∧
      ∀ y, V.Known e y ∨ V.Reached e' y → V.look e'' y = V.look e' y

variable {V}

section

variable {P Q : ν → Prop} {e e' e₁ e₂ : σ}

/-- Values denote what they did if they look as they did all the way down. -/
theorem Denotes.mono {v : ν} {c : Content φ} (h : V.Denotes P e v c)
    (hkept : ∀ y, P y → Q y ∧ V.look e' y = V.look e y) : V.Denotes Q e' v c := by
  -- The values on the way are the same ones, so each case looks at one of them again.
  induction h with
  | null hv hs => exact .null (hkept _ hv).1 ((hkept _ hv).2.trans hs)
  | truth hv hs => exact .truth (hkept _ hv).1 ((hkept _ hv).2.trans hs)
  | number hv hs => exact .number (hkept _ hv).1 ((hkept _ hv).2.trans hs)
  | text hv hs => exact .text (hkept _ hv).1 ((hkept _ hv).2.trans hs)
  | function hv hs => exact .function (hkept _ hv).1 ((hkept _ hv).2.trans hs)
  | array hv hs hlength _ ih => exact .array (hkept _ hv).1 ((hkept _ hv).2.trans hs) hlength ih
  | object hv hs hnames _ ih => exact .object (hkept _ hv).1 ((hkept _ hv).2.trans hs) hnames ih

/-- A property of a value that goes over to what the value holds is one of all values on the
    way. -/
theorem Denotes.inside {v : ν} {c : Content φ} (h : V.Denotes P e v c) (hv : Q v)
    (hheld : ∀ y w, Q y → (V.look e y).Holds w → Q w) : V.Denotes Q e v c := by
  induction h with
  | null _ hs => exact .null hv hs
  | truth _ hs => exact .truth hv hs
  | number _ hs => exact .number hv hs
  | text _ hs => exact .text hv hs
  | function _ hs => exact .function hv hs
  | array _ hs hlength _ ih =>
      refine .array hv hs hlength fun i w c hw hc => ih i w c hw hc (hheld _ w hv ?_)
      rw [hs]
      exact List.mem_of_getElem? hw
  | object _ hs hnames _ ih =>
      refine .object hv hs hnames fun name w c hw hc => ih name w c hw hc (hheld _ w hv ?_)
      rw [hs]
      exact ⟨name, hw⟩

theorem Keeps.trans (h : V.Keeps P e e₁) (h' : V.Keeps P e₁ e₂) : V.Keeps P e e₂ where
  sound := h'.sound
  known := by
    intro y hy hp
    rcases h.known y hy hp with ⟨hy₁, hs₁⟩
    rcases h'.known y hy₁ hp with ⟨hy₂, hs₂⟩
    exact ⟨hy₂, hs₂.trans hs₁⟩

theorem Keeps.weaken (h : V.Keeps (fun _ => True) e e') : V.Keeps P e e' where
  sound := h.sound
  known := fun y hy _ => h.known y hy trivial

namespace Changed

variable {s s' : Look ν φ} {a : Handle} {x x' : ν}

/-- What is under the handle after a change. -/
theorem getElem? (h : V.Changed s a x e e') (hx : (V.stack e)[a.index]? = some x) :
    ∃ x', (V.stack e')[a.index]? = some x' ∧ V.look e' x' = s ∧ V.Known e' x' ∧
      (V.shares → x' = x) := by
  rcases h.value with ⟨x', more, hstack, hrest⟩
  have hlt := (List.getElem?_eq_some_iff.mp hx).1
  have hset : a.index < ((V.stack e).set a.index x').length := by
    rw [List.length_set]
    exact hlt
  refine ⟨x', ?_, hrest⟩
  rw [hstack, List.getElem?_append_left hset, List.getElem?_set_self hlt]

/-- A container that is changed once more. -/
theorem trans (h : V.Changed s a x e e₁) (hx : (V.stack e)[a.index]? = some x)
    (hx' : (V.stack e₁)[a.index]? = some x') (h' : V.Changed s' a x' e₁ e₂) :
    V.Changed s' a x e e₂ := by
  rcases h.getElem? hx with ⟨y, hy, _, _, hshared⟩
  -- Where values are shared, the container is the same one in all three states.
  have hxx' : V.shares → x' = x := by
    intro hs
    rw [hx', Option.some.injEq] at hy
    exact hy.trans (hshared hs)
  refine ⟨h.keeps.trans ⟨h'.keeps.sound, fun z hz hne => h'.keeps.known z hz fun hs => ?_⟩, ?_⟩
  · rw [hxx' hs]
    exact hne hs
  rcases h.value with ⟨z, more, hstack, _⟩
  rcases h'.value with ⟨z', more', hstack', hlook, hknown, hsame⟩
  have hlt : a.index < ((V.stack e).set a.index z).length := by
    rw [List.length_set]
    exact (List.getElem?_eq_some_iff.mp hx).1
  refine ⟨z', more ++ more', ?_, hlook, hknown, fun hs => (hsame hs).trans (hxx' hs)⟩
  rw [hstack', hstack, List.set_append_left _ _ hlt, List.set_set, List.append_assoc]

theorem refl (he : V.Sound e) (hknown : V.Known e x) (hx : (V.stack e)[a.index]? = some x)
    (hs : V.look e x = s) : V.Changed s a x e e := by
  refine ⟨⟨he, fun y hy _ => ⟨hy, rfl⟩⟩, x, [], ?_, hs, hknown, fun _ => rfl⟩
  rcases List.getElem?_eq_some_iff.mp hx with ⟨hlt, hget⟩
  rw [List.append_nil, ← hget, List.set_getElem_self]

/-- What is apart from a container that was changed before is apart from it. -/
theorem apart (h : V.Changed s a x e e₁) (hshared : V.shares → x' = x) {y : ν}
    (hy : V.Apart x' e₁ e₂ y) : V.Apart x e e₂ y := by
  have hne : V.shares → y ≠ x := by
    intro hs
    rw [← hshared hs]
    exact hy.ne hs
  refine ⟨⟨hy.known, fun hs hc hknown => hy.unknown hs hc ?_⟩, hne⟩
  exact (h.keeps.known y hknown hne).1

end Changed

/-- A value that is apart from a container denotes what it did when the container has
    changed. -/
theorem Denotes.changed {s : Look ν φ} {a : Handle} {x x' w : ν} {c : Content φ}
    (h : V.Denotes (V.Apart x e e₁) e₁ w c) (hshared : V.shares → x' = x)
    (hc : V.Changed s a x' e₁ e₂) : V.Denotes (V.Apart x e e₂) e₂ w c := by
  refine h.mono fun y hy => ?_
  rcases hc.keeps.known y hy.known fun hs heq => hy.ne hs (heq.trans (hshared hs)) with
    ⟨hy', hsame⟩
  refine ⟨⟨⟨hy', fun hs hcontainer => hy.unknown hs ?_⟩, hy.ne⟩, hsame⟩
  rw [← hsame]
  exact hcontainer

/-- An array that has new items behind those from before, each what it should be. -/
def Filled (V : View σ ν φ) (before : List ν) (contents : List (Content φ)) (a : Handle) (x : ν)
    (e e' : σ) : Prop :=
  ∃ new, V.Changed (.array (before ++ new)) a x e e' ∧ new.length = contents.length ∧
    ∀ (i : Nat) (w : ν) (c : Content φ), new[i]? = some w → contents[i]? = some c →
      V.Denotes (V.Apart x e e') e' w c

/-- An object that has new fields over those from before, each what it should be. -/
def Overlaid (V : View σ ν φ) (get : String → Option ν) (fields : List (String × Content φ))
    (o : Handle) (x : ν) (e e' : σ) : Prop :=
  ∃ get', V.Changed (.object get') o x e e' ∧
    (∀ name, name ∉ fields.map Prod.fst → get' name = get name) ∧
    ∀ (name : String) (c : Content φ), (name, c) ∈ fields →
      ∃ w, get' name = some w ∧ V.Denotes (V.Apart x e e') e' w c

/-- One item more: the others are put behind it, and it denotes what it did. -/
theorem Filled.cons {before : List ν} {w x x' : ν} {c : Content φ} {contents : List (Content φ)}
    {a : Handle} (hfirst : V.Changed (.array (before ++ [w])) a x e e₁)
    (hw : V.Denotes (V.Apart x e e₁) e₁ w c) (hx : (V.stack e)[a.index]? = some x)
    (hx' : (V.stack e₁)[a.index]? = some x') (hshared : V.shares → x' = x)
    (hrest : V.Filled (before ++ [w]) contents a x' e₁ e₂) :
    V.Filled before (c :: contents) a x e e₂ := by
  rcases hrest with ⟨new, hchanged, hlength, hnew⟩
  refine ⟨w :: new, ?_, by rw [List.length_cons, List.length_cons, hlength], ?_⟩
  · rw [List.append_assoc, List.singleton_append] at hchanged
    exact hfirst.trans hx hx' hchanged
  · intro i u d hu hd
    -- The first item was there before the others were put behind it.
    cases i with
    | zero =>
        rw [List.getElem?_cons_zero, Option.some.injEq] at hu hd
        rw [← hu, ← hd]
        exact hw.changed hshared hchanged
    | succ i =>
        rw [List.getElem?_cons_succ] at hu hd
        exact (hnew i u d hu hd).mono fun y hy => ⟨hfirst.apart hshared hy, rfl⟩

/-- One field more: it stays if no later one has its name. -/
theorem Overlaid.cons {get : String → Option ν} {name : String} {w x x' : ν} {c : Content φ}
    {fields : List (String × Content φ)} {o : Handle}
    (hfirst : V.Changed (.object fun n => if n = name then some w else get n) o x e e₁)
    (hw : V.Denotes (V.Apart x e e₁) e₁ w c) (hx : (V.stack e)[o.index]? = some x)
    (hx' : (V.stack e₁)[o.index]? = some x') (hshared : V.shares → x' = x)
    (hrest : V.Overlaid (fun n => if n = name then some w else get n) fields o x' e₁ e₂) :
    V.Overlaid get (if name ∈ fields.map Prod.fst then fields else (name, c) :: fields) o x
      e e₂ := by
  rcases hrest with ⟨get', hchanged, hothers, hfields⟩
  refine ⟨get', hfirst.trans hx hx' hchanged, ?_, ?_⟩
  · -- A name that no field has is not that of the first field either, whether it was left out or
    -- not.
    intro n hn
    have hne : n ∉ fields.map Prod.fst ∧ n ≠ name := by
      split at hn
      · next hlater => exact ⟨hn, fun heq => hn (heq ▸ hlater)⟩
      · rw [List.map_cons, List.mem_cons, not_or] at hn
        exact ⟨hn.2, hn.1⟩
    exact (hothers n hne.1).trans (if_neg hne.2)
  · intro n d hmem
    have hlater : (n, d) ∈ fields →
        ∃ u, get' n = some u ∧ V.Denotes (V.Apart x e e₂) e₂ u d := by
      intro hfield
      rcases hfields n d hfield with ⟨u, hu, hdenotes⟩
      exact ⟨u, hu, hdenotes.mono fun y hy => ⟨hfirst.apart hshared hy, rfl⟩⟩
    split at hmem
    · exact hlater hmem
    · next hlast =>
      rcases List.mem_cons.mp hmem with heq | hfield
      · rw [Prod.mk.injEq] at heq
        rw [heq.1, heq.2]
        exact ⟨w, (hothers name hlast).trans (if_pos rfl), hw.changed hshared hchanged⟩
      · exact hlater hfield

/-- A value built for a content, under the handle that is handed out, with what was needed
    on the way above it. -/
structure Built (V : View σ ν φ) (c : Content φ) (e : σ) (r : Handle × σ) : Prop where
  keeps : V.Keeps (fun _ => True) e r.2
  handle : r.1.index = (V.stack e).length
  value : ∃ v more, V.stack r.2 = V.stack e ++ v :: more ∧ V.Denotes (V.Fresh e r.2) r.2 v c

theorem Pushed.built {s : Look ν φ} {c : Content φ} {r : Handle × σ} (h : V.Pushed s e r)
    (hc : ∀ v, V.Fresh e r.2 v → V.look r.2 v = s → V.Denotes (V.Fresh e r.2) r.2 v c) :
    V.Built c e r := by
  rcases h.value with ⟨v, hstack, hs, hv⟩
  exact ⟨h.keeps, h.handle, v, [], hstack, hc v hv hs⟩

namespace Built

variable {c : Content φ} {r : Handle × σ} {s : Look ν φ} {a : Handle} {x w : ν}

theorem getElem? (h : V.Built c e r) : ∃ w, (V.stack r.2)[r.1.index]? = some w ∧
    V.Denotes (V.Fresh e r.2) r.2 w c := by
  rcases h.value with ⟨w, more, hstack, hw⟩
  refine ⟨w, ?_, hw⟩
  rw [hstack, h.handle, List.getElem?_append_right (Nat.le_refl _), Nat.sub_self,
    List.getElem?_cons_zero]

/-- A container below stays where it is and looks as it did. -/
theorem below (h : V.Built c e r) (hknown : V.Known e x)
    (hx : (V.stack e)[a.index]? = some x) :
    (V.stack r.2)[a.index]? = some x ∧ V.look r.2 x = V.look e x := by
  rcases h.value with ⟨w, more, hstack, _⟩
  refine ⟨?_, (h.keeps.known x hknown trivial).2⟩
  rw [hstack, List.getElem?_append_left (List.getElem?_eq_some_iff.mp hx).1, hx]

/-- A value is put into a container: the container is changed, and the value denotes what it
    did, since it is not the container and does not hold it. -/
theorem put (h : V.Built c e r) (hknown : V.Known e x) (hx : (V.stack e)[a.index]? = some x)
    (hcontainer : (V.look e x).IsContainer) (hw : V.Denotes (V.Fresh e r.2) r.2 w c)
    (hput : V.Changed s a x r.2 e') :
    V.Changed s a x e e' ∧ V.Denotes (V.Apart x e e') e' w c := by
  rcases h.below hknown hx with ⟨_, hlook⟩
  refine ⟨⟨h.keeps.weaken.trans hput.keeps, ?_⟩, hw.mono fun y hy => ?_⟩
  · rcases h.value with ⟨v, more, hstack, _⟩
    rcases hput.value with ⟨x', more', hstack', hrest⟩
    refine ⟨x', v :: more ++ more', ?_, hrest⟩
    rw [hstack', hstack, List.set_append_left _ _ (List.getElem?_eq_some_iff.mp hx).1,
      List.append_assoc]
  · -- Containers in the value are new, and this one was known before it was built.
    have hne : V.shares → y ≠ x := by
      intro hs heq
      rw [heq] at hy
      rw [← hlook] at hcontainer
      exact hy.unknown hs hcontainer hknown
    rcases hput.keeps.known y hy.known hne with ⟨hy', hsame⟩
    refine ⟨⟨⟨hy', fun hs hc => hy.unknown hs ?_⟩, hne⟩, hsame⟩
    rw [← hsame]
    exact hc

/-- A new container that was filled. -/
theorem of_filled {s : Look ν φ} (hnew : V.Pushed s e r) (hcontainer : s.IsContainer)
    (hx : (V.stack r.2)[r.1.index]? = some x) {s' : Look ν φ}
    (hfilled : V.Changed s' r.1 x r.2 e')
    (hc : ∀ x', V.Fresh e e' x' → V.look e' x' = s' → V.Denotes (V.Fresh e e') e' x' c) :
    V.Built c e (r.1, e') := by
  rcases hnew.value with ⟨v, hstack, hs, hv⟩
  have hvx : v = x := by
    rw [hstack, hnew.handle, List.getElem?_concat_length, Option.some.injEq] at hx
    exact hx
  subst hvx
  have hunknown : V.shares → ¬V.Known e v := fun hshares =>
    hv.unknown hshares (by rw [hs]; exact hcontainer)
  rcases hfilled.value with ⟨x', more, hstack', hs', hx', hshared⟩
  refine ⟨⟨hfilled.keeps.sound, fun y hy _ => ?_⟩, hnew.handle, x', more, ?_, hc x' ⟨hx', ?_⟩ hs'⟩
  · -- What was known before the container is another value where values are shared.
    rcases hnew.keeps.known y hy trivial with ⟨hy₁, hsame⟩
    rcases hfilled.keeps.known y hy₁ fun hshares heq => hunknown hshares (heq ▸ hy) with
      ⟨hy₂, hsame'⟩
    exact ⟨hy₂, hsame'.trans hsame⟩
  · rw [hstack', hstack, hnew.handle, List.set_append_right _ _ (Nat.le_refl _), Nat.sub_self,
      List.set_cons_zero, List.append_assoc, List.singleton_append]
  · intro hshares _
    rw [hshared hshares]
    exact hunknown hshares

end Built

/-- What came to be apart from a new container is fresh. -/
theorem Pushed.fresh {s : Look ν φ} {r : Handle × σ} (h : V.Pushed s e r) {x y : ν}
    (hy : V.Apart x r.2 e' y) : V.Fresh e e' y :=
  ⟨hy.known, fun hshares hcontainer hknown =>
    hy.unknown hshares hcontainer (h.keeps.known y hknown trivial).1⟩

/-- A new array with its items. -/
theorem Filled.built {contents : List (Content φ)} {r : Handle × σ} {x : ν}
    (h : V.Filled [] contents r.1 x r.2 e') (hnew : V.Pushed (.array []) e r)
    (hx : (V.stack r.2)[r.1.index]? = some x) : V.Built (.array contents) e (r.1, e') := by
  rcases h with ⟨items, hchanged, hlength, hitems⟩
  refine .of_filled hnew trivial hx hchanged fun x' hx' hs' => ?_
  refine .array hx' hs' hlength fun i w c hw hc => ?_
  exact (hitems i w c hw hc).mono fun y hy => ⟨hnew.fresh hy, rfl⟩

/-- A new object with its fields, and no others. -/
theorem Overlaid.built {fields : List (String × Content φ)} {r : Handle × σ} {x : ν}
    (h : V.Overlaid (fun _ => none) fields r.1 x r.2 e')
    (hnew : V.Pushed (.object fun _ => none) e r) (hx : (V.stack r.2)[r.1.index]? = some x) :
    V.Built (.object fields) e (r.1, e') := by
  rcases h with ⟨get, hchanged, hothers, hfields⟩
  refine .of_filled hnew trivial hx hchanged fun x' hx' hs' => ?_
  refine .object hx' hs' (fun name => ⟨fun hsome => ?_, fun hname => ?_⟩) fun name w c hw hc => ?_
  · -- A new object has no fields but those that were laid over it.
    by_cases hname : name ∈ fields.map Prod.fst
    · exact hname
    · rw [hothers name hname] at hsome
      cases hsome
  · rcases List.mem_map.mp hname with ⟨⟨name, c⟩, hmem, rfl⟩
    rcases hfields name c hmem with ⟨w, hw, _⟩
    rw [hw]
    rfl
  · rcases hfields name c hc with ⟨w', hw', hdenotes⟩
    rw [hw, Option.some.injEq] at hw'
    rw [hw']
    exact hdenotes.mono fun y hy => ⟨hnew.fresh hy, rfl⟩

theorem Pushed.getElem? {s : Look ν φ} {r : Handle × σ} (h : V.Pushed s e r) :
    ∃ x, (V.stack r.2)[r.1.index]? = some x ∧ V.look r.2 x = s := by
  rcases h.value with ⟨x, hstack, hs, _⟩
  refine ⟨x, ?_, hs⟩
  rw [hstack, h.handle, List.getElem?_concat_length]

end

namespace Lawful

variable [Engine σ] {asked : Asked} {e : σ}

theorem known_of_getElem? (h : V.Lawful asked) (he : V.Sound e) {i : Nat} {x : ν}
    (hx : (V.stack e)[i]? = some x) : V.Known e x :=
  h.known e he x (List.mem_of_getElem? hx)

/-- What was made of the function scalars of a tree, by the states in which they are come
    to. -/
def madeOf (V : View σ ν φ) (met : List (String × σ)) : List (Option φ) :=
  met.map fun m => V.made m.2 m.1

theorem built_pushScalar (h : V.Lawful asked) {text : String}
    (hfits : (SceneNode.scalar text).Fits asked) (he : V.Sound e) {made : List (Option φ)}
    (hmade : madeOf V (Seeding.met (.scalar text) e) <+: made) :
    V.Built ((SceneNode.scalar text).content made) e
      ((Seeding.pushScalar text : StateM σ Handle).run e) := by
  rw [SceneNode.Fits, SceneNode.isFunctionText] at hfits
  rw [Seeding.met, SceneNode.isFunctionText] at hmade
  rw [SceneNode.content, SceneNode.isFunctionText, Seeding.pushScalar]
  by_cases hf : "function".toList.isPrefixOf text.toList
  · rw [if_pos hf] at hmade
    rw [if_pos hf, if_pos hf, run_bind_state]
    have hhead : made.head? = some (V.made e text) := by
      rcases hmade with ⟨rest, hrest⟩
      rw [← hrest]
      rfl
    rw [hhead, Option.join_some]
    rcases hmadeText : V.made e text with _ | f
    · -- Nothing was pushed, so the text takes the place of the function.
      rcases h.pushFunction_fails text e (hfits hf) he hmadeText with
        ⟨fault, e₁, hrun, hstack, hkeeps⟩
      rw [hrun]
      rcases h.pushText text e₁ hkeeps.sound with ⟨hkeeps', hhandle, v, hstack', hs, hv⟩
      rw [hstack] at hhandle hstack'
      refine ⟨hkeeps.trans hkeeps', hhandle, v, [], hstack', .text ⟨hv.known, ?_⟩ hs⟩
      intro _ hcontainer
      rw [hs] at hcontainer
      exact hcontainer.elim
    · rcases h.pushFunction text f e (hfits hf) he hmadeText with ⟨r, hrun, hpushed⟩
      rw [hrun]
      exact hpushed.built fun v hv hs => .function hv hs
  · rw [if_neg hf, if_neg hf]
    unfold SceneNode.plainContent
    generalize SceneNode.truthOf? text = truth
    generalize SceneNode.numberOf? text = number
    rcases truth with _ | b
    · rcases number with _ | x
      · exact (h.pushText text e he).built fun v hv hs => .text hv hs
      · exact (h.pushNumber x e he).built fun v hv hs => .number hv hs
    · exact (h.pushBoolean b e he).built fun v hv hs => .truth hv hs

omit [Engine σ] in
theorem madeOf_append_prefix {met met' : List (String × σ)} {made : List (Option φ)}
    (h : madeOf V (met ++ met') <+: made) :
    madeOf V met <+: made ∧ madeOf V met' <+: made.drop met.length := by
  rcases h with ⟨rest, hrest⟩
  rw [madeOf, List.map_append, List.append_assoc] at hrest
  refine ⟨⟨_, hrest⟩, rest, ?_⟩
  have hlength : met.length = (met.map fun m => V.made m.2 m.1).length := by
    rw [List.length_map]
  rw [← hrest, hlength, List.drop_left]
  rfl

mutual

/-- A tree is built as a value that denotes it. -/
theorem built_pushNode (h : V.Lawful asked) : ∀ (node : SceneNode) (e : σ)
    (made : List (Option φ)), node.Fits asked → V.Sound e →
    madeOf V (Seeding.met node e) <+: made →
    V.Built (node.content made) e ((Seeding.pushNode node : StateM σ Handle).run e)
  | .null, e, made, _, he, _ => by
      rw [Seeding.pushNode, SceneNode.content]
      exact (h.pushNull e he).built fun v hv hs => .null hv hs
  | .scalar text, e, made, hfits, he, hmade => by
      rw [Seeding.pushNode]
      exact h.built_pushScalar hfits he hmade
  | .sequence items, e, made, hfits, he, hmade => by
      rw [SceneNode.Fits] at hfits
      rw [Seeding.met] at hmade
      rw [Seeding.pushNode, SceneNode.content, run_bind_state]
      have hnew := h.pushArray e he
      generalize (Engine.pushArray : StateM σ Handle).run e = r at hnew hmade ⊢
      rcases hnew.getElem? with ⟨x, hx, hs⟩
      have hfilled := built_pushItems h r.1 x [] items r.2 made hfits hnew.keeps.sound hmade hx hs
      exact hfilled.built hnew hx
  | .mapping entries, e, made, hfits, he, hmade => by
      rw [SceneNode.Fits] at hfits
      rw [Seeding.met] at hmade
      rw [Seeding.pushNode, SceneNode.content, run_bind_state]
      have hnew := h.pushObject e he
      generalize (Engine.pushObject : StateM σ Handle).run e = r at hnew hmade ⊢
      rcases hnew.getElem? with ⟨x, hx, hs⟩
      have hlaid := built_pushEntries h r.1 x _ entries r.2 made hfits hnew.keeps.sound hmade hx hs
      exact hlaid.built hnew hx

/-- Items are put into an array behind those that it has. -/
theorem built_pushItems (h : V.Lawful asked) (a : Handle) (x : ν) (before : List ν) :
    ∀ (items : List SceneNode) (e : σ) (made : List (Option φ)),
    SceneNode.FitsItems asked before.length items → V.Sound e →
    madeOf V (Seeding.metInItems a before.length items e) <+: made →
    (V.stack e)[a.index]? = some x → V.look e x = .array before →
    V.Filled before (SceneNode.contentOfItems items made) a x e
      ((Seeding.pushItems a before.length items : StateM σ Unit).run e).2
  | [], e, made, _, he, _, hx, hs => by
      rw [Seeding.pushItems, SceneNode.contentOfItems]
      refine ⟨[], ?_, rfl, fun i w c hw _ => by cases hw⟩
      rw [List.append_nil]
      exact .refl he (h.known_of_getElem? he hx) hx hs
  | item :: items, e, made, hfits, he, hmade, hx, hs => by
      rw [SceneNode.FitsItems] at hfits
      rcases hfits with ⟨hitem, hposition, hitems⟩
      rw [Seeding.metInItems] at hmade
      -- The functions of the item come first, those of the other items behind them.
      rcases madeOf_append_prefix hmade with ⟨hfirst, hrest⟩
      rw [Seeding.length_met] at hrest
      rw [Seeding.pushItems, SceneNode.contentOfItems, run_bind_state, run_bind_state]
      have hbuilt := built_pushNode h item e made hitem he hfirst
      have hknown := h.known_of_getElem? he hx
      generalize (Seeding.pushNode item : StateM σ Handle).run e = r at hbuilt hrest ⊢
      rcases hbuilt.below hknown hx with ⟨hx₁, hs₁⟩
      rcases hbuilt.getElem? with ⟨w, hw, hdenotes⟩
      have hput := h.setElement a r.1 x w before r.2 hbuilt.keeps.sound hposition hx₁
        (hs₁.trans hs) hw
      generalize ((Engine.setElement a before.length r.1 : StateM σ Unit).run r.2).2 = e₂
        at hput hrest ⊢
      rcases hbuilt.put hknown hx (by rw [hs]; trivial) hdenotes hput with ⟨hchanged, hdenotes₂⟩
      rcases hchanged.getElem? hx with ⟨x', hx', hs', _, hshared⟩
      have hlength : before.length + 1 = (before ++ [w]).length := by
        rw [List.length_append, List.length_singleton]
      rw [hlength] at hitems hrest ⊢
      exact .cons hchanged hdenotes₂ hx hx' hshared
        (built_pushItems h a x' (before ++ [w]) items e₂ _ hitems hput.keeps.sound hrest hx' hs')

/-- Entries are put into an object over those that it has. -/
theorem built_pushEntries (h : V.Lawful asked) (o : Handle) (x : ν) (get : String → Option ν) :
    ∀ (entries : List (SceneNode × SceneNode)) (e : σ) (made : List (Option φ)),
    SceneNode.FitsEntries asked entries → V.Sound e →
    madeOf V (Seeding.metInEntries o entries e) <+: made →
    (V.stack e)[o.index]? = some x → V.look e x = .object get →
    V.Overlaid get (SceneNode.contentOfEntries entries made) o x e
      ((Seeding.pushEntries o entries : StateM σ Unit).run e).2
  | [], e, made, _, he, _, hx, hs => by
      rw [Seeding.pushEntries, SceneNode.contentOfEntries]
      exact ⟨get, .refl he (h.known_of_getElem? he hx) hx hs, fun _ _ => rfl,
        fun _ _ hmem => absurd hmem List.not_mem_nil⟩
  | (.scalar name, node) :: entries, e, made, hfits, he, hmade, hx, hs => by
      rw [SceneNode.FitsEntries] at hfits
      rcases hfits with ⟨hnode, hname, hentries⟩
      rw [Seeding.metInEntries] at hmade
      rcases madeOf_append_prefix hmade with ⟨hfirst, hrest⟩
      rw [Seeding.length_met] at hrest
      rw [Seeding.pushEntries, SceneNode.contentOfEntries, run_bind_state, run_bind_state]
      have hbuilt := built_pushNode h node e made hnode he hfirst
      have hknown := h.known_of_getElem? he hx
      generalize (Seeding.pushNode node : StateM σ Handle).run e = r at hbuilt hrest ⊢
      rcases hbuilt.below hknown hx with ⟨hx₁, hs₁⟩
      rcases hbuilt.getElem? with ⟨w, hw, hdenotes⟩
      have hput := h.setField o r.1 x w get name r.2 hbuilt.keeps.sound hname hx₁
        (hs₁.trans hs) hw
      generalize ((Engine.setField o name r.1 : StateM σ Unit).run r.2).2 = e₂ at hput hrest ⊢
      rcases hbuilt.put hknown hx (by rw [hs]; trivial) hdenotes hput with ⟨hchanged, hdenotes₂⟩
      rcases hchanged.getElem? hx with ⟨x', hx', hs', _, hshared⟩
      exact .cons hchanged hdenotes₂ hx hx' hshared
        (built_pushEntries h o x' _ entries e₂ _ hentries hput.keeps.sound hrest hx' hs')
  -- A key that is no scalar is no name, and its entry is left out.
  | (.null, _) :: entries, e, made, hfits, he, hmade, hx, hs
  | (.sequence _, _) :: entries, e, made, hfits, he, hmade, hx, hs
  | (.mapping _, _) :: entries, e, made, hfits, he, hmade, hx, hs => by
      simp only [SceneNode.FitsEntries] at hfits
      simp only [Seeding.metInEntries] at hmade
      simp only [Seeding.pushEntries, SceneNode.contentOfEntries]
      exact built_pushEntries h o x get entries e made hfits he hmade hx hs

end

end Lawful

end View

end MapStyling
