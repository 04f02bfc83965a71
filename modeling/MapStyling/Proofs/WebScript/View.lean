import MapStyling.Proofs.Names
import MapStyling.Proofs.WebScript.Looks

/-!
# A View of the Engine that Runs the Interpreter

The engine of web scripts as one that shares values, where the interpreter runs them.

What a value looks like is found in the store, and a container that is filled stays
the same value. A value is known once its cell is there. The two cells that all
scripts share are not seen as containers, since a global variable is set in one of
them.

The engine can be asked for functions whose sources are no more than a literal, for
fields that do not name the parent of an object, and for as many elements as an
array can have.

## Main definitions

* `WebScript.view`: What is seen of an engine.
* `WebScript.asked`: What the engine can be asked for.

## Theorems

* `WebScript.lawful`: The engine does what it is asked for.
-/

namespace MapStyling

open WebEngine

namespace WebScript

namespace Store

variable {s : Store}

/-- What looks like an array is one, with as many elements. -/
theorem array_of_look {v : Value} {items : List Value} (h : s.look v = .array items) :
    ∃ a p properties, v = .reference a ∧ unshared a ∧
      s.cells[a]? = some (.object (.array items.length) p properties) ∧
      (Cell.object (.array items.length) p properties).look = .array items := by
  have hcontainer : (s.look v).IsContainer := by rw [h]; trivial
  rcases eq_reference_of_look hcontainer with ⟨a, c, rfl, ha, hc, hlook⟩
  rw [h] at hlook
  have harray : ∃ n p properties, c = .object (.array n) p properties := by
    rcases c with vs | ⟨_ | n | ⟨f, scopes, self⟩, p, properties⟩ <;> cases hlook
    exact ⟨n, p, properties, rfl⟩
  rcases harray with ⟨n, p, properties, rfl⟩
  have hlength : items.length = n := by
    rw [Look.array.inj hlook, List.length_map, List.length_range]
  rw [hlength]
  exact ⟨a, p, properties, rfl, ha, hc, hlook.symm⟩

/-- What looks like an object is one that is no array and no function. -/
theorem object_of_look {v : Value} {get : String → Option Value} (h : s.look v = .object get) :
    ∃ a p properties, v = .reference a ∧ unshared a ∧
      s.cells[a]? = some (.object .plain p properties) ∧
      get = fun name => properties.lookup (Units.ofString name) := by
  have hcontainer : (s.look v).IsContainer := by rw [h]; trivial
  rcases eq_reference_of_look hcontainer with ⟨a, c, rfl, ha, hc, hlook⟩
  rw [h] at hlook
  rcases c with vs | ⟨_ | n | ⟨f, scopes, self⟩, p, properties⟩ <;> cases hlook
  exact ⟨a, p, properties, rfl, ha, hc, rfl⟩

/-- A reference that can be called is one to a function. -/
theorem closure_of_isCallable {a : Nat} (h : s.isCallable (.reference a) = true) :
    ∃ f scopes self p properties,
      s.cells[a]? = some (.object (.closure f scopes self) p properties) := by
  rcases Option.isSome_iff_exists.mp h with ⟨⟨f, scopes, self⟩, hclosure⟩
  simp only [closure?] at hclosure
  split at hclosure
  · next hc =>
    cases hclosure
    exact ⟨f, scopes, self, _, _, hc⟩
  · cases hclosure

end Store

/-- An engine with a sound store that has everything on the stack. -/
structure Backed (e : WebEngine language) : Prop where
  store : Store.Sound 0 e.context
  stack : ∀ v ∈ e.stack.values, Value.Below (Store.size e.context) v

/-- What is seen of an engine. -/
def view : View (WebEngine language) Value Function where
  Sound := Backed
  Known e v := v.Below (Store.size e.context)
  shares := True
  stack e := e.stack.values.toList
  look e v := Store.look e.context v
  global e := Store.global? e.context (Units.ofString globalName)
  made e source := match (compile source).run e with
    | (.ok v, e') => (Store.closure? e'.context v).map Prod.fst
    | (.error _, _) => none

/-- What the engine can be asked for. -/
def asked : Asked where
  sources source := Inert (scriptText source)
  names name := Units.ofString name ≠ parentName
  positions i := i < UInt32.size - 1

section

variable {e e₁ : WebEngine language} {v w : Value} {c : Cell} {s : Look Value Function}

theorem value_of_stack {h : Handle} (hv : (view.stack e)[h.index]? = some v) : e.value h = v := by
  have hget : e.stack.get? h = some v := by
    rw [ValueStack.get?, ← hv]
    exact Array.getElem?_toList.symm
  rw [value, hget]
  rfl

/-- What is on the stack is in the store. -/
theorem below_of_stack (h : Backed e) {a : Handle} (hv : (view.stack e)[a.index]? = some v) :
    v.Below (Store.size e.context) :=
  h.stack v (Array.mem_toList_iff.mp (List.mem_of_getElem? hv))

/-- Another store that has at least as many cells. -/
theorem Backed.withContext (h : Backed e) {t : Store} (ht : t.Sound 0)
    (hsize : Store.size e.context ≤ t.size) : Backed { e with context := t } :=
  ⟨ht, fun v hv => (h.stack v hv).mono hsize⟩

theorem Backed.push (h : Backed e) (hv : v.Below (Store.size e.context)) :
    Backed ((push v).run e).2 where
  store := h.store
  stack := by
    intro w hw
    rcases Array.mem_push.mp hw with hold | rfl
    · exact h.stack w hold
    · exact hv

/-- An engine with nothing on its stack. -/
theorem backed_new : Backed WebEngine.new := by
  have hname := settable_variableNames featureName mem_variableNames.1
  have hinitial := Store.sound_initial (Nat.zero_le 2)
  refine ⟨?_, fun _ hv => absurd hv (Array.not_mem_empty _)⟩
  change Store.Sound 0 (language.withVariable featureName .null .initial)
  rw [withVariable_eq hinitial hname]
  exact sound_setGlobal hinitial hname (Value.below_of_no_address rfl)

/-- Values look the same when the store has grown. -/
theorem keeps_of_grows (h' : Backed e₁) (hg : Store.Grows e.context e₁.context)
    (P : Value → Prop) : view.Keeps P e e₁ := by
  refine ⟨h', fun y hy _ => ⟨hy.mono hg.size_le, ?_⟩⟩
  exact Store.look_congr fun a ha _ => hg.cells a (hy a ha)

/-- A value on top of a store that has grown, and whose cell is new if it is a container. -/
theorem pushed_push (h₁ : Backed e₁) (hg : Store.Grows e.context e₁.context)
    (hstack : e₁.stack = e.stack) (hv : v.Below (Store.size e₁.context))
    (hs : Store.look e₁.context v = s)
    (hnew : s.IsContainer → ¬v.Below (Store.size e.context)) :
    view.Pushed s e ((push v).run e₁) where
  keeps := keeps_of_grows (h₁.push hv) hg _
  handle := by
    change e₁.stack.height = _
    rw [hstack]
    exact Array.length_toList.symm
  value := by
    refine ⟨v, ?_, hs, hv, fun _ hcontainer => hnew ?_⟩
    · change (e₁.stack.values.push v).toList = _
      rw [hstack]
      exact Array.toList_push
    · rw [← hs]
      exact hcontainer

/-- A value that is no object. -/
theorem pushed_plain (h : Backed e) (hv : v.address? = none) (hs : Store.look e.context v = s)
    (hplain : ¬s.IsContainer) : view.Pushed s e ((push v).run e) :=
  pushed_push h (.refl e.context) rfl (Value.below_of_no_address hv) hs fun hc => absurd hc hplain

/-- A new object without properties. -/
theorem pushed_newCell (h : Backed e) {shape : Shape} (family : Family)
    (hshape : shape = .plain ∨ shape = .array 0) :
    let c := Cell.object shape (.common family) []
    view.Pushed c.look e ((push (L := language) (Value.reference (Store.size e.context))).run
      { e with context := (Store.add e.context c).2 }) := by
  intro c
  have hadded := Ends.newCell h.store.twin family hshape
  have hgrows : Store.Grows e.context (Store.add e.context c).2 :=
    (Store.Grows.refl e.context).add c
  refine pushed_push (h.withContext hadded.twin.sound hgrows.size_le) hgrows rfl hadded.below ?_
    fun _ hbelow => ?_
  · exact Store.look_reference h.store.scriptScope_lt (Store.getElem?_add_self e.context c)
  · exact absurd (hbelow _ rfl) (Nat.lt_irrefl _)

/-- A property set in an object of its own. -/
theorem changed_withProperty (h : Backed e) {o : Handle} {a : Nat} {name : Units} {c' : Cell}
    (ha : unshared a) (hx : (view.stack e)[o.index]? = some (.reference a))
    (hc : e.context.cells[a]? = some c) (hw : w.Below (Store.size e.context))
    (hname : name ≠ parentName) (hset : Store.setOwn? name w c = some c') :
    view.Changed c'.look o (.reference a) e
      { e with context := Store.withProperty (.reference a) name w e.context } := by
  have hne : a ≠ Store.globalObject := Nat.ne_of_gt (Nat.lt_trans Nat.zero_lt_one ha)
  have hstore : Store.setProperty? e.context (.reference a) name w
      = some (Store.modify e.context a fun _ => c') := by
    simp only [Store.setProperty?, hname, hne, decide_false, Bool.false_and, Bool.false_eq_true,
      if_false, hc, hset, Option.map_some]
  have hsize : Store.size (Store.modify e.context a fun _ => c') = Store.size e.context :=
    Store.size_modify _ _ _
  have hbacked := h.withContext (h.store.setProperty? hw hstore).1 hsize.ge
  rw [Store.withProperty, hstore, Option.getD_some]
  -- The object is the same reference as before, so the stack is not written to.
  refine ⟨⟨hbacked, fun y hy hneq => ⟨hy.mono hsize.ge, ?_⟩⟩, .reference a, [], ?_, ?_,
    (below_of_stack h hx).mono hsize.ge, fun _ => rfl⟩
  · refine Store.look_congr fun b hb _ => Store.getElem?_modify_of_ne _ _ fun heq => ?_
    rw [heq] at hneq
    exact hneq trivial (Value.eq_reference hb)
  · rcases List.getElem?_eq_some_iff.mp hx with ⟨hlt, hget⟩
    rw [List.append_nil, ← hget, List.set_getElem_self]
    rfl
  · refine Store.look_reference ha ?_
    rw [Store.getElem?_modify_self, hc]
    rfl

/-- An array takes an element behind its last one. -/
theorem setOwn?_indexName {n : Nat} (hn : n < UInt32.size - 1) (w p : Value)
    (properties : List (Units × Value)) :
    Store.setOwn? (indexName n) w (.object (.array n) p properties)
      = some (.object (.array (n + 1)) p (Entries.put (indexName n) w properties)) := by
  have hlength : indexName n ≠ lengthName := indexName_ne (by decide) n
  simp only [Store.setOwn?, hlength, if_false, index?_indexName hn]
  rw [Nat.max_eq_right (Nat.le_succ n)]

theorem look_put_indexName (n : Nat) (w p : Value) (properties : List (Units × Value)) :
    (Cell.object (.array (n + 1)) p (Entries.put (indexName n) w properties)).look
      = .array (((List.range n).map fun i =>
          (properties.lookup (indexName i)).getD .undefined) ++ [w]) := by
  rw [Cell.look, List.range_succ, List.map_append]
  refine congrArg Look.array (congrArg₂ _ (List.map_congr_left fun i hi => ?_) ?_)
  · have hne : indexName i ≠ indexName n := fun heq =>
      Nat.ne_of_lt (List.mem_range.mp hi) (indexName_injective heq)
    rw [Entries.lookup_put_of_ne w hne]
  · rw [List.map_singleton, Entries.lookup_put_self, Option.getD_some]

theorem look_put_field (name : String) (w p : Value) (properties : List (Units × Value)) :
    (Cell.object .plain p (Entries.put (Units.ofString name) w properties)).look
      = .object fun n => if n = name then some w else properties.lookup (Units.ofString n) := by
  refine congrArg Look.object (funext fun n => ?_)
  split
  · next hn => rw [hn, Entries.lookup_put_self]
  · next hn =>
    -- Two names are one if their code units are.
    rw [Entries.lookup_put_of_ne w fun heq => hn (Units.ofString_injective heq)]

/-- Setting the position behind the last element makes an array longer by one. -/
theorem changed_setElement (h : Backed e) {a b : Handle} {x : Value} {items : List Value}
    (hposition : asked.positions items.length) (hx : (view.stack e)[a.index]? = some x)
    (hs : view.look e x = .array items) (hw : (view.stack e)[b.index]? = some w) :
    view.Changed (.array (items ++ [w])) a x e
      ((Engine.setElement a items.length b : StateM (WebEngine language) Unit).run e).2 := by
  rcases Store.array_of_look hs with ⟨i, p, properties, rfl, hi, hc, hlook⟩
  have hlt : items.length < UInt32.size - 1 := hposition
  have hmod : (UInt32.ofNat items.length).toNat = items.length :=
    UInt32.toNat_ofNat_of_lt' (by omega)
  have harray : e.isArray (.reference i) = true := by
    simp only [isArray, Store.arrayLength?, hc, Option.isSome_some]
  -- The array looks longer by the new element once its property is put.
  have hlonger : Look.array (items ++ [w])
      = (Cell.object (.array (items.length + 1)) p
          (Entries.put (indexName items.length) w properties)).look := by
    rw [look_put_indexName]
    rw [Cell.look, Look.array.injEq] at hlook
    rw [hlook]
  have hset : ((language.setElement (.reference i) (.ofNat items.length) w).run e.context).2
      = Store.withProperty (.reference i) (indexName items.length) w e.context := by
    change Store.withProperty (.reference i) (indexName (UInt32.ofNat items.length).toNat) w _ = _
    rw [hmod]
  change view.Changed _ a _ e ((setElement a items.length b).run e).2
  rw [run_setElement, value_of_stack hx, value_of_stack hw, if_pos harray, hlonger, hset]
  exact changed_withProperty h hi hx hc (below_of_stack h hw) (indexName_ne (by decide) _)
    (setOwn?_indexName hlt w p properties)

/-- Setting a field of an object puts its property, over one that was there or last. -/
theorem changed_setField (h : Backed e) {o b : Handle} {x : Value} {get : String → Option Value}
    {name : String} (hname : asked.names name) (hx : (view.stack e)[o.index]? = some x)
    (hs : view.look e x = .object get) (hw : (view.stack e)[b.index]? = some w) :
    view.Changed (.object fun n => if n = name then some w else get n) o x e
      ((Engine.setField o name b : StateM (WebEngine language) Unit).run e).2 := by
  rcases Store.object_of_look hs with ⟨i, p, properties, rfl, hi, hc, rfl⟩
  change view.Changed _ o _ e
    { e with context := Store.withProperty (e.value o) (Units.ofString name) (e.value b) e.context }
  rw [value_of_stack hx, value_of_stack hw, ← look_put_field name w p]
  exact changed_withProperty h hi hx hc (below_of_stack h hw) hname rfl

/-- Setting the global variable of scenes changes the object of globals alone, which is not seen
    as a container. -/
theorem seen_setGlobal (h : Backed e) {a : Handle} (hv : (view.stack e)[a.index]? = some v) :
    let e' := ((Engine.setGlobal globalName a : StateM (WebEngine language) Unit).run e).2
    view.stack e' = view.stack e ∧ view.global e' = some v ∧
      view.Keeps (fun _ => True) e e' := by
  have hname := settable_variableNames globalName mem_variableNames.2.1
  have hsize := Store.size_setGlobal e.context (Units.ofString globalName) v
  have hrun : ((Engine.setGlobal globalName a : StateM (WebEngine language) Unit).run e).2
      = { e with context := Store.setGlobal e.context (Units.ofString globalName) v } := by
    change { e with context := language.withVariable globalName (e.value a) e.context } = _
    rw [value_of_stack hv, withVariable_eq h.store hname]
  dsimp only
  rw [hrun]
  have hbacked := h.withContext (sound_setGlobal h.store hname (below_of_stack h hv)) hsize.ge
  refine ⟨rfl, ?_, hbacked, fun y hy _ => ⟨hy.mono hsize.ge, ?_⟩⟩
  · exact Store.global?_of_own? hname (h.store.own?_setGlobal _ v)
  · exact Store.look_congr fun b _ hb =>
      Store.getElem?_setGlobal_of_ne _ _ _ (Nat.lt_trans Nat.zero_lt_one hb)

/-- Closing a scope takes the values in it from the stack, and leaves the store. -/
theorem stack_reset (hstack : view.stack e <+: view.stack e₁) :
    view.stack ((Engine.reset (Engine.mark e) : StateM (WebEngine language) Unit).run e₁).2
      = view.stack e := by
  change (e₁.stack.values.take e.stack.values.size).toList = e.stack.values.toList
  rw [Array.take_eq_extract, Array.toList_extract, ← Array.length_toList]
  exact (List.prefix_iff_eq_take.mp hstack).symm

end

/-- What an inert source comes to: a fault, or a function in a new cell. -/
theorem compiled {source : String} (hs : Inert (scriptText source)) {e : WebEngine language}
    (h : Backed e) :
    (∃ fault, (compile source).run e = (.error fault, e) ∧ view.made e source = none) ∨
      ∃ v f e', (compile source).run e = (.ok v, e') ∧ view.made e source = some f ∧
        view.Pushed (.function f) e ((push v).run e') := by
  have hcompile := run_compile source e
  rcases run_evaluateSource_of_inert hs with hfault | ⟨x, -, hrun⟩
  · rw [hfault] at hcompile
    exact Or.inl ⟨_, hcompile, by simp only [view, hcompile]⟩
  · have hends := comes_inert everywhere hs id e.context e.context h.store.twin
    have hgrows := grows_evaluateLiteral x e.context
    have hcases := evaluateLiteral_cases x
    simp only [hrun] at hcompile hends
    rcases hcases with hfunction | hplain
    · -- The literal is evaluated on top of the store, and its value is one of the new cells.
      rcases hfunction e.context with ⟨hcallable, a, ha, hvalue⟩
      rw [if_pos hcallable] at hcompile
      have hsound := h.withContext hends.twin.sound hgrows.size_le
      have hbelow : (evaluateLiteral x e.context).1.Below (evaluateLiteral x e.context).2.size :=
        hends.below
      rw [hvalue] at hcallable hcompile hbelow
      generalize (evaluateLiteral x e.context).2 = t at *
      rcases Store.closure_of_isCallable hcallable with ⟨f, scopes, self, p, properties, hc⟩
      have hunshared : unshared a := Nat.lt_of_lt_of_le h.store.scriptScope_lt ha
      refine Or.inr ⟨_, f, _, hcompile, ?_, ?_⟩
      · simp only [view, hcompile, Store.closure?, hc, Option.map_some]
      · refine pushed_push hsound hgrows rfl hbelow (Store.look_reference hunshared hc) ?_
        exact fun hcontainer => hcontainer.elim
    · rcases hplain e.context with ⟨hsame, hcallable⟩
      rw [hcallable, if_neg Bool.false_ne_true, hsame] at hcompile
      exact Or.inl ⟨_, hcompile, by simp only [view, hcompile]⟩

/-- The engine does what it is asked for. -/
theorem lawful : view.Lawful asked where
  known := fun e h v hv => h.stack v (Array.mem_toList_iff.mp hv)
  pushNull := fun e h => pushed_plain h rfl rfl id
  pushBoolean := fun b e h => pushed_plain h rfl rfl id
  pushNumber := fun x e h => pushed_plain h rfl rfl id
  pushText := fun s e h =>
    pushed_plain h rfl (congrArg Look.text (Units.display_ofString s)) id
  pushArray := fun e h => pushed_newCell h .array (Or.inr rfl)
  pushObject := fun e h => pushed_newCell h .object (Or.inl rfl)
  pushFunction := by
    intro source f e hs h hmade
    rcases compiled hs h with ⟨fault, _, hnone⟩ | ⟨v, g, e', hrun, hsome, hpushed⟩
    · rw [hnone] at hmade
      cases hmade
    · rw [hsome, Option.some.injEq] at hmade
      rw [hmade] at hpushed
      refine ⟨(push v).run e', ?_, hpushed⟩
      change (pushFunction source).run e = _
      rw [run_pushFunction, hrun]
      rfl
  pushFunction_fails := by
    intro source e hs h hmade
    rcases compiled hs h with ⟨fault, hrun, _⟩ | ⟨v, g, e', _, hsome, _⟩
    · refine ⟨fault, e, ?_, rfl, keeps_of_grows h (.refl e.context) _⟩
      change (pushFunction source).run e = _
      rw [run_pushFunction, hrun]
      rfl
    · rw [hsome] at hmade
      cases hmade
  setElement := fun _ _ _ _ _ _ h hposition hx hs hw => changed_setElement h hposition hx hs hw
  setField := fun _ _ _ _ _ _ _ h hname hx hs hw => changed_setField h hname hx hs hw
  setGlobal := fun _ _ _ h hv => seen_setGlobal h hv
  reset := fun _ _ _ _ hstack => ⟨stack_reset hstack, rfl, fun _ _ => rfl⟩

end WebScript

end MapStyling
