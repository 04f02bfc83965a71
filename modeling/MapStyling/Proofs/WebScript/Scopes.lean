import MapStyling.Proofs.WebScript.Tied

/-!
# Variables and Scopes

Runs that read and write variables, make functions and open scopes are tied.

Opening a scope is where names are taken away from the targets of a term: what
is declared in the scope can be written to, since the scope is new, and where
any other name is does not change.

## Theorems

* `Tied.readName`, `Tied.writeName`, `Tied.settle`: Runs on variables.
* `Tied.close`, `Tied.closeNamed`, `Tied.nameAfter`: Runs that make functions.
* `Tied.openBlock`, `Tied.openFunction`: Runs that open a scope, and that make a
  frame ready for what is inside.
-/

namespace MapStyling

namespace WebScript

/-- The scope that a name is found in holds it, and can be written to. -/
theorem Frame.Ready.le_address {m : Nat} {s : Store} {targets : List Target} {frame : Frame}
    (h : frame.Ready m s targets) {n : Units} (hn : .name n ∈ targets) {a : Nat} {x : Variable}
    (hx : s.resolve? n frame.scopes = some (a, x)) : m ≤ a := by
  have hw := h.writable _ hn
  simp only [Store.Writable, Store.holder, hx, Option.map_some, Option.getD_some] at hw
  exact hw

/-- A name that is in no scope can be written to only if anything can. -/
theorem Frame.Ready.mark_eq_zero {m : Nat} {s : Store} {targets : List Target} {frame : Frame}
    (h : frame.Ready m s targets) {n : Units} (hn : .name n ∈ targets)
    (hx : s.resolve? n frame.scopes = none) : m = 0 := by
  have hw := h.writable _ hn
  simp only [Store.Writable, Store.holder, hx, Option.map_none, Option.getD_none,
    Store.globalObject] at hw
  omega

theorem mem_addresses_put_variable {name : Units} {x : Variable} {vs : List (Units × Variable)}
    {b : Nat} (h : b ∈ (Cell.scope (Entries.put name x vs)).addresses) :
    x.value.bind Value.address? = some b ∨ b ∈ (Cell.scope vs).addresses := by
  simp only [Cell.addresses] at h ⊢
  rcases List.mem_filterMap.mp h with ⟨e, he, heb⟩
  rcases Entries.mem_put he with hput | hold
  · exact Or.inl (by rw [hput] at heb; exact heb)
  · exact Or.inr (List.mem_filterMap.mpr ⟨e, hold, heb⟩)

/-- A scope with a variable set, and any other cell as it is. -/
def Cell.setVariable (name : Units) (x : Variable) : Cell → Cell
  | .scope vs => .scope (Entries.put name x vs)
  | c => c

/-- A function with another name, and any other cell as it is. -/
def Cell.setName (name : Units) : Cell → Cell
  | .object (.closure f scopes self) parent properties =>
    .object (.closure { f with name } scopes self) parent properties
  | c => c

/-- Twins after a variable of a scope was set that is not below the mark. -/
theorem Store.Twin.setVariable {D : Nat → Prop} {m : Nat} {ρ : Nat → Nat} {s t : Store}
    (h : Store.Twin D m ρ s t) {a : Nat} (hm : m ≤ a) (ha : D a) (name : Units) {v : Value}
    (hv : v.Below s.size) (k : Mutability) :
    Store.Twin D m ρ (s.setVariable a name ⟨some v, k⟩)
        (t.setVariable (ρ a) name ⟨some (v.moved ρ), k⟩) ∧
      s.Keeps m (s.setVariable a name ⟨some v, k⟩) := by
  -- A scope keeps its names, and a cell that is no scope is left alone.
  have hbecomes : ∀ c, s.cells[a]? = some c → c.Becomes (c.setVariable name ⟨some v, k⟩) := by
    intro c _
    cases c with
    | object shape p properties => exact .refl _
    | scope vs =>
        refine .scope fun n hn => ?_
        by_cases he : n = name
        · rw [he, Entries.lookup_put_self]
          rfl
        · rwa [Entries.lookup_put_of_ne _ he]
  refine ⟨h.modify hm ha (fun c hc => ⟨hbecomes c hc, ?_, ?_⟩) ?_, .modify hm hbecomes⟩
  · cases c <;> rfl
  · intro b hb
    cases c with
    | object shape p properties => exact h.sound.closed a _ hc b hb
    | scope vs =>
        rcases mem_addresses_put_variable hb with hvb | hold
        · exact hv b hvb
        · exact h.sound.closed a _ hc b hold
  · intro c d hc hd hcd
    cases hcd with
    | object shape p hprops => exact .object shape p hprops
    | scope vs =>
        have hput := Entries.put_map (Variable.moved ρ) name ⟨some v, k⟩ vs
        change Cell.Alike ρ (.scope (Entries.put name ⟨some v, k⟩ vs))
          (.scope (Entries.put name (Variable.moved ρ ⟨some v, k⟩) _))
        rw [hput]
        exact .scope _

namespace Tied

variable {m : Nat} {ρ : Nat → Nat} {s t : Store}

theorem readName (h : Store.Twin everywhere m ρ s t) (frame : Frame) (name : Units) :
    Tied m ρ (Value.Paired ρ) (WebScript.readName frame name)
      (WebScript.readName (frame.moved ρ) name) s t := by
  unfold WebScript.readName
  refine get_bind ?_
  simp only [Frame.moved, h.alike.resolve? name fun _ _ => trivial]
  rcases hr : s.resolve? name frame.scopes with _ | ⟨a, ⟨_ | v, k⟩⟩
  · simp only [Option.map_none, h.alike.global? h.sound.grounded trivial]
    rcases hg : s.global? name with _ | v
    · exact failure h
    · exact pure h ⟨rfl, h.sound.below_global? hg⟩
  · exact failure h
  · exact pure h ⟨rfl, (h.sound.below_resolve? hr).2.2 v rfl⟩

theorem typeOfName (h : Store.Twin everywhere m ρ s t) (frame : Frame) (name : Units) :
    Tied m ρ (Value.Paired ρ) (WebScript.typeOfName frame name)
      (WebScript.typeOfName (frame.moved ρ) name) s t := by
  unfold WebScript.typeOfName
  refine get_bind ?_
  have hr : (t.resolve? name (frame.moved ρ).scopes).isNone
      = (s.resolve? name frame.scopes).isNone := by
    rw [Frame.moved, h.alike.resolve? name fun _ _ => trivial, Option.isNone_map]
  have hg : (t.global? name).isNone = (s.global? name).isNone := by
    rw [h.alike.global? h.sound.grounded trivial, Option.isNone_map]
  rw [hr, hg]
  split
  · exact pure_value h rfl
  · refine (readName h frame name).bind fun v w s' t' h' hk hvw => ?_
    rw [hvw.1, typeOf_moved h v]
    exact pure_value h' rfl

theorem writeName (h : Store.Twin everywhere m ρ s t) {frame : Frame} {name : Units}
    (hf : frame.Ready m s [.name name]) {v : Value} (hv : v.Below s.size) :
    Tied m ρ Same (WebScript.writeName frame name v)
      (WebScript.writeName (frame.moved ρ) name (v.moved ρ)) s t := by
  unfold WebScript.writeName
  refine get_bind ?_
  simp only [Frame.moved, h.alike.resolve? name fun _ _ => trivial]
  rcases hr : s.resolve? name frame.scopes with _ | ⟨a, ⟨_ | w, _ | _ | _⟩⟩
  · have hm := hf.mark_eq_zero List.mem_cons_self hr
    have hset := setProperty h (.reference Store.globalObject) name
      (fun _ _ => by omega) hv
    rwa [Value.moved_reference, h.alike.globalObject] at hset
  · exact failure h
  · exact failure h
  · exact failure h
  · have hset := h.setVariable (hf.le_address List.mem_cons_self hr) trivial name hv .mutable
    exact modify hset.1 hset.2
  · exact failure h
  · exact pure h rfl

theorem settle (h : Store.Twin everywhere m ρ s t) {frame : Frame} {name : Units}
    (hf : frame.Ready m s [.name name]) {v : Value} (hv : v.Below s.size) :
    Tied m ρ Same (WebScript.settle frame name v)
      (WebScript.settle (frame.moved ρ) name (v.moved ρ)) s t := by
  unfold WebScript.settle
  refine get_bind ?_
  simp only [Frame.moved, h.alike.resolve? name fun _ _ => trivial]
  rcases hr : s.resolve? name frame.scopes with _ | ⟨a, ⟨x, k⟩⟩
  · have hm := hf.mark_eq_zero List.mem_cons_self hr
    have hset := setProperty h (.reference Store.globalObject) name
      (fun _ _ => by omega) hv
    rwa [Value.moved_reference, h.alike.globalObject] at hset
  · have hset := h.setVariable (hf.le_address List.mem_cons_self hr) trivial name hv k
    exact modify hset.1 hset.2

/-- A function value is a new cell, and it is not below the mark. -/
theorem close (h : Store.Twin everywhere m ρ s t) {frame : Frame} {f : Function}
    (hf : frame.Ready m s f.targets) :
    Tied m ρ (fun s' v w => v.Paired ρ s' w ∧ ∀ a, v.address? = some a → m ≤ a)
      (WebScript.close frame f) (WebScript.close (frame.moved ρ) f) s t := by
  unfold WebScript.close
  -- An arrow has the `this` of the frame, and any other function has none before it is called.
  have hself : (if f.isArrow then frame.self else .undefined).Below s.size := by
    split
    · exact hf.self
    · exact Value.below_of_no_address rfl
  have hmoved : (if f.isArrow then (frame.moved ρ).self else .undefined)
      = (if f.isArrow then frame.self else .undefined).moved ρ := by
    split <;> rfl
  rw [hmoved]
  generalize (if f.isArrow then frame.self else Value.undefined) = self at hself ⊢
  have hcd : Cell.Alike ρ (.object (.closure f frame.scopes self) (.common .function) [])
      (.object (.closure f (frame.moved ρ).scopes (self.moved ρ)) (.common .function) []) :=
    .object (.closure f frame.scopes self) (.common .function) fun _ => rfl
  refine (allocate h hcd ?_ rfl ?_).bind fun a b s' t' h' hk hab => ?_
  · intro b hb
    simp only [Cell.addresses, List.filterMap_nil, List.nil_append, List.mem_append,
      Option.mem_toList] at hb
    rcases hb with (hb | hb) | hb
    · exact hf.scopes b hb
    · exact hself b hb
    · exact absurd hb (by simp only [Value.address?, reduceCtorEq, not_false_eq_true])
  · intro g scopes captured p properties heq x hx
    cases heq
    exact hf.writable x hx
  · rcases hab with ⟨hs', ha, hb⟩
    have hlt : a < s'.size := by rw [hs', Store.size_add, ha]; omega
    refine pure h' ⟨⟨by rw [hb, Value.moved_reference], Value.below_reference hlt⟩, ?_⟩
    intro c hc
    rw [← Option.some.inj hc, ha]
    exact h.sound.mark_le

/-- The name that a function is first stored under is written to a new cell. -/
theorem nameAfter (h : Store.Twin everywhere m ρ s t) (e : Expression) (name : Units) {v : Value}
    (hv : isNameless e = true → ∀ a, v.address? = some a → m ≤ a) :
    Tied m ρ Same (WebScript.nameAfter e name v) (WebScript.nameAfter e name (v.moved ρ)) s t := by
  unfold WebScript.nameAfter
  cases v with
  | reference a =>
      rw [Value.moved_reference]
      simp only []
      split
      · next hless =>
        -- A function without a name comes from a literal, so its cell is new.
        have hm := hv hless a rfl
        have hbecomes : ∀ c, s.cells[a]? = some c → c.Becomes (c.setName name) := by
          intro c _
          unfold Cell.setName
          split
          · exact .object (.closure _ name _ _) _ _ _ _
          · exact .refl _
        refine modify (h.modify hm trivial (fun c hc => ⟨hbecomes c hc, ?_, ?_⟩) ?_)
          (.modify hm hbecomes)
        · split <;> rfl
        · intro b hb
          refine h.sound.closed a _ hc b ?_
          split at hb
          · exact hb
          · exact hb
        · intro c d hc hd hcd
          cases hcd with
          | scope vs => exact .scope vs
          | object shape p hprops =>
              cases shape with
              | closure f scopes self =>
                exact .object (.closure { f with name } scopes self) p hprops
              | plain => exact .object .plain p hprops
              | array n => exact .object (.array n) p hprops
      · exact pure h rfl
  | _ => exact pure h rfl

/-- Functions stored in the variables of their names. -/
theorem declareFunctions : ∀ (fs : List Function) {s t : Store} {frame : Frame},
    Store.Twin everywhere m ρ s t →
    (∀ f ∈ fs, frame.Ready m s (.name f.name :: f.targets)) →
    Tied m ρ Same (WebScript.declareFunctions frame fs)
      (WebScript.declareFunctions (frame.moved ρ) fs) s t := by
  intro fs
  induction fs with
  | nil =>
      intro s t frame h _
      exact pure h rfl
  | cons f rest ih =>
      intro s t frame h hf
      have hfirst := hf f List.mem_cons_self
      simp only [WebScript.declareFunctions]
      refine (close h hfirst.tail).bind
        fun v w s' t' h' hk hvw => ?_
      rcases hvw with ⟨⟨hw, hv⟩, _⟩
      rw [hw]
      have hname := (hfirst.keeps hk).subset
        (List.cons_subset_cons (.name f.name) (List.nil_subset f.targets))
      refine (settle h' hname hv).bind fun _ _ s'' t'' h'' hk' _ => ?_
      exact ih h'' fun g hg => (hf g (List.mem_cons_of_mem _ hg)).keeps (hk.trans hk')

end Tied

/-- A new scope makes a frame ready for what is inside if it declares what is written
    to there and not outside. -/
theorem Frame.Ready.add {m : Nat} {s : Store} {names : List Units} {targets : List Target}
    {frame : Frame} (h : frame.Ready m s (Target.outside names targets))
    (hm : m ≤ s.size) {vs : List (Units × Variable)} (hvs : ∀ n ∈ names, n ∈ vs.map Prod.fst)
    {self : Value} (hself : self.Below s.size) :
    (Frame.mk (s.size :: frame.scopes) self).Ready m (s.add (.scope vs)).2 targets where
  scopes := by
    intro a ha
    rw [Store.size_add]
    rcases List.mem_cons.mp ha with ha | ha
    · omega
    · have := h.scopes a ha
      omega
  self := hself.mono (by rw [Store.size_add]; omega)
  writable := by
    intro x hx
    -- A name of the new scope is found in it, and other targets where they were found before.
    by_cases hin : x.isAmong names
    · cases x with
      | member => exact absurd hin (by simp only [Target.isAmong, Bool.false_eq_true,
          not_false_eq_true])
      | name n =>
          refine Store.writable_of_bound hm ?_
          have hb : (s.add (.scope vs)).2.bindings s.size = vs := by
            simp only [Store.bindings, Store.getElem?_add_self]
          rw [hb]
          simp only [Target.isAmong, List.contains_iff_mem] at hin
          exact Entries.lookup_isSome_of_mem (hvs n hin)
    · refine .cons hm ((Store.Keeps.add s _ hm).writable (h.writable x ?_))
      exact Target.mem_outside.mpr ⟨hx, by simpa only [Bool.not_eq_true] using hin⟩

namespace Tied

variable {m : Nat} {ρ : Nat → Nat} {s t : Store}

/-- Opening a scope in front of others: what comes next finds it at the next free
    address. -/
theorem allocateScope (h : Store.Twin everywhere m ρ s t) (vs : List (Units × Variable))
    (hvs : ∀ b ∈ (Cell.scope vs).addresses, b < s.size) :
    Tied m ρ (fun s' a b => s' = (s.add (.scope vs)).2 ∧ a = s.size ∧ b = ρ a)
      (WebScript.allocate (.scope vs))
      (WebScript.allocate (.scope (vs.map fun x => (x.1, x.2.moved ρ)))) s t :=
  allocate h (.scope vs) hvs rfl fun _ _ _ _ _ heq => by cases heq

/-- A function that sees itself under its name has a scope of its own for the name. -/
theorem closeNamed (h : Store.Twin everywhere m ρ s t) {frame : Frame} {f : Function}
    (hf : frame.Ready m s f.targets) :
    Tied m ρ (Value.Paired ρ) (WebScript.closeNamed frame f)
      (WebScript.closeNamed (frame.moved ρ) f) s t := by
  unfold WebScript.closeNamed
  have hm := h.sound.mark_le
  refine (allocateScope h [(f.name, ⟨none, .fixed⟩)] ?_).bind
    fun a b s' t' h' hk hab => ?_
  · intro b hb
    exact absurd hb (by simp only [Cell.addresses, List.filterMap_cons, Option.bind_none,
      List.filterMap_nil, List.not_mem_nil, not_false_eq_true])
  · rcases hab with ⟨hs', ha, hb⟩
    have houter := hf.keeps hk
    have hinner : (Frame.mk (a :: frame.scopes) frame.self).Ready m s' f.targets := by
      refine ⟨List.forall_mem_cons.mpr ⟨?_, houter.scopes⟩, houter.self,
        fun x hx => .cons (by omega) (houter.writable x hx)⟩
      rw [hs', Store.size_add, ha]
      omega
    rw [hb]
    refine (close h' hinner).bind fun v w s'' t'' h'' hk' hvw => ?_
    rcases hvw with ⟨⟨hw, hv⟩, _⟩
    rw [hw]
    -- The name is there from the start, and has its value once the function is closed.
    have hset := h''.setVariable (by omega : m ≤ a) trivial f.name hv .fixed
    refine (modify hset.1 hset.2).bind fun _ _ s₃ t₃ h₃ hk₃ _ => ?_
    exact pure h₃ ⟨rfl, hv.mono hk₃.size_le⟩

end Tied

/-- Variables of a block have no value yet, so moving them does nothing. -/
theorem blockVariables_moved (ρ : Nat → Nat) (body : List Statement) :
    (blockVariables body).map (fun x => (x.1, x.2.moved ρ)) = blockVariables body := by
  simp only [blockVariables, List.map_map]
  rfl

theorem undefinedVariables_moved (ρ : Nat → Nat) (names : List Units) :
    (undefinedVariables names).map (fun x => (x.1, x.2.moved ρ)) = undefinedVariables names := by
  simp only [undefinedVariables, List.map_map]
  rfl

theorem bindParameters_moved (ρ : Nat → Nat) : ∀ (names : List Units) (arguments : List Value),
    (bindParameters names arguments).map (fun x => (x.1, x.2.moved ρ))
      = bindParameters names (arguments.map (Value.moved ρ)) := by
  intro names
  induction names with
  | nil => intro arguments; rfl
  | cons name names ih =>
      intro arguments
      simp only [bindParameters]
      split
      · rw [ih, List.map_drop]
      · rw [List.map_cons, ih, List.map_drop]
        cases arguments <;> rfl

theorem names_blockVariables (body : List Statement) :
    (blockVariables body).map Prod.fst = (body.flatMap Statement.lexicals).map Prod.fst := by
  simp only [blockVariables, List.map_map]
  rfl

theorem names_undefinedVariables (names : List Units) :
    (undefinedVariables names).map Prod.fst = names := by
  simp only [undefinedVariables, List.map_map]
  exact List.map_id names

theorem mem_names_bindParameters {n : Units} : ∀ {names : List Units} (arguments : List Value),
    n ∈ names → n ∈ (bindParameters names arguments).map Prod.fst := by
  intro names
  induction names with
  | nil => intro _ h; exact absurd h List.not_mem_nil
  | cons name names ih =>
      intro arguments h
      simp only [bindParameters]
      split
      · next hin =>
        refine ih _ ?_
        rcases List.mem_cons.mp h with he | hmem
        · rw [he]
          exact List.contains_iff_mem.mp hin
        · exact hmem
      · rw [List.map_cons]
        exact List.mem_cons.mpr ((List.mem_cons.mp h).imp_right (ih _))

theorem addresses_append (vs ws : List (Units × Variable)) :
    (Cell.scope (vs ++ ws)).addresses = (Cell.scope vs).addresses ++ (Cell.scope ws).addresses := by
  simp only [Cell.addresses, List.filterMap_append]

theorem addresses_blockVariables (body : List Statement) :
    (Cell.scope (blockVariables body)).addresses = [] := by
  simp only [Cell.addresses, blockVariables, List.filterMap_map]
  exact List.filterMap_eq_nil_iff.mpr fun _ _ => rfl

theorem addresses_undefinedVariables (names : List Units) :
    (Cell.scope (undefinedVariables names)).addresses = [] := by
  simp only [Cell.addresses, undefinedVariables, List.filterMap_map]
  exact List.filterMap_eq_nil_iff.mpr fun _ _ => rfl

theorem addresses_bindParameters {n : Nat} : ∀ (names : List Units) {arguments : List Value},
    (∀ v ∈ arguments, v.Below n) →
    ∀ b ∈ (Cell.scope (bindParameters names arguments)).addresses, b < n := by
  intro names
  induction names with
  | nil => intro _ _ b hb; exact absurd hb List.not_mem_nil
  | cons name names ih =>
      intro arguments h b hb
      have hrest := ih fun v (hv : v ∈ arguments.drop 1) => h v (List.mem_of_mem_drop hv)
      simp only [bindParameters] at hb
      -- Of two parameters of one name the first is left out.
      split at hb
      · exact hrest b hb
      · simp only [Cell.addresses, List.filterMap_cons, Option.bind_some] at hb hrest
        cases arguments with
        | nil => exact hrest b hb
        | cons v others =>
            simp only [List.head?_cons, Option.getD_some] at hb
            split at hb
            · exact hrest b hb
            · next c hc =>
              rcases List.mem_cons.mp hb with he | hmem
              · exact he ▸ h v List.mem_cons_self c hc
              · exact hrest b hmem

namespace Tied

variable {m : Nat} {ρ : Nat → Nat} {s t : Store}

/-- Functions declared in a scope are ready if the scope is for the statements that
    declare them. -/
theorem declareFunctions_of_body (h : Store.Twin everywhere m ρ s t) {frame : Frame}
    {body : List Statement} (hf : frame.Ready m s (bodyTargets body)) :
    Tied m ρ Same (WebScript.declareFunctions frame (body.filterMap Statement.function?))
      (WebScript.declareFunctions (frame.moved ρ) (body.filterMap Statement.function?)) s t := by
  refine declareFunctions _ h fun f hmem => hf.subset ?_
  rcases mem_bodyTargets_of_function hmem with ⟨hname, htargets⟩
  exact List.cons_subset.mpr ⟨hname, htargets⟩

/-- A frame with a new scope, and the functions of a body in place, is ready for the body if the
    scope has the names that the frame outside need not provide. -/
theorem openScope (h : Store.Twin everywhere m ρ s t) {frame : Frame} {body : List Statement}
    {names : List Units} (hf : frame.Ready m s (Target.outside names (bodyTargets body)))
    (vs : List (Units × Variable)) (hvs : ∀ b ∈ (Cell.scope vs).addresses, b < s.size)
    (hnames : ∀ n ∈ names, n ∈ vs.map Prod.fst) :
    Tied m ρ (fun s' frame' frame'' => frame'' = frame'.moved ρ ∧
        frame'.Ready m s' (bodyTargets body))
      (do let scope ← WebScript.allocate (.scope vs)
          WebScript.declareFunctions (Frame.mk (scope :: frame.scopes) frame.self)
            (body.filterMap Statement.function?)
          return Frame.mk (scope :: frame.scopes) frame.self)
      (do let scope ← WebScript.allocate (.scope (vs.map fun x => (x.1, x.2.moved ρ)))
          WebScript.declareFunctions (Frame.mk (scope :: (frame.moved ρ).scopes)
            (frame.moved ρ).self)
            (body.filterMap Statement.function?)
          return Frame.mk (scope :: (frame.moved ρ).scopes) (frame.moved ρ).self) s t := by
  refine (allocateScope h vs hvs).bind fun a b s' t' h' hk hab => ?_
  rcases hab with ⟨hs', ha, hb⟩
  have hinner : (Frame.mk (a :: frame.scopes) frame.self).Ready m s' (bodyTargets body) := by
    rw [hs', ha]
    exact hf.add h.sound.mark_le hnames hf.self
  rw [hb]
  refine (declareFunctions_of_body h' hinner).bind fun _ _ s'' t'' h'' hk' _ => ?_
  exact pure h'' ⟨rfl, hinner.keeps hk'⟩

theorem openBlock (h : Store.Twin everywhere m ρ s t) {frame : Frame} {body : List Statement}
    (hf : frame.Ready m s (Target.outside (Statement.declared body) (bodyTargets body))) :
    Tied m ρ (fun s' frame' frame'' => frame'' = frame'.moved ρ ∧
        frame'.Ready m s' (bodyTargets body))
      (WebScript.openBlock frame body) (WebScript.openBlock (frame.moved ρ) body) s t := by
  have hopened := openScope h hf
    (undefinedVariables ((body.filterMap Statement.function?).map Function.name)
      ++ blockVariables body) (by
        intro b hb
        rw [addresses_append, addresses_undefinedVariables, addresses_blockVariables] at hb
        exact absurd hb List.not_mem_nil) (by
        intro n hn
        rwa [List.map_append, names_undefinedVariables, names_blockVariables])
  rw [List.map_append, undefinedVariables_moved, blockVariables_moved] at hopened
  exact hopened

/-- The scope of a call has every name that the body of the function declares. -/
theorem mem_names_openFunction (f : Function) (arguments : List Value) {n : Units}
    (h : n ∈ Statement.declaredBy f.parameters f.body) :
    n ∈ (bindParameters f.parameters arguments
      ++ undefinedVariables ((Statement.hoistedOf f.body
        ++ (f.body.filterMap Statement.function?).map Function.name).filter
          (fun name => !f.parameters.contains name))
      ++ blockVariables f.body).map Prod.fst := by
  simp only [List.map_append, names_undefinedVariables, names_blockVariables, List.mem_append]
  by_cases hp : n ∈ f.parameters
  · exact Or.inl (Or.inl (mem_names_bindParameters arguments hp))
  · -- What is no parameter is hoisted, a function or a variable of the block.
    rw [List.mem_filter, List.mem_append]
    simp only [Statement.declaredBy, Statement.declared, List.mem_append] at h
    have hnot : (!f.parameters.contains n) = true := by
      simpa only [Bool.not_eq_true', List.contains_iff_mem, Bool.eq_false_iff, ne_eq] using hp
    rcases h with (h | h) | h | h
    · exact absurd h hp
    · exact Or.inl (Or.inr ⟨Or.inl h, hnot⟩)
    · exact Or.inl (Or.inr ⟨Or.inr h, hnot⟩)
    · exact Or.inr h

theorem openFunction (h : Store.Twin everywhere m ρ s t) {f : Function} {scopes : List Nat}
    {self : Value} {arguments : List Value} (hf : (Frame.mk scopes self).Ready m s f.targets)
    (hargs : ∀ v ∈ arguments, v.Below s.size) :
    Tied m ρ (fun s' frame' frame'' => frame'' = frame'.moved ρ ∧
        frame'.Ready m s' (bodyTargets f.body))
      (WebScript.openFunction f scopes self arguments)
      (WebScript.openFunction f (scopes.map ρ) (self.moved ρ) (arguments.map (Value.moved ρ)))
      s t := by
  have hopened := openScope h hf _ (by
    intro b hb
    rw [addresses_append, addresses_append, addresses_undefinedVariables,
      addresses_blockVariables, List.append_nil, List.append_nil] at hb
    exact addresses_bindParameters _ hargs b hb) fun n => mem_names_openFunction f arguments
  rw [List.map_append, List.map_append, bindParameters_moved, undefinedVariables_moved,
    blockVariables_moved] at hopened
  exact hopened

end Tied

end WebScript

end MapStyling
