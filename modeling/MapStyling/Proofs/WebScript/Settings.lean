import MapStyling.Proofs.Names
import MapStyling.Proofs.WebEngine.Making
import MapStyling.Proofs.WebScript.Operations

/-!
# Variables of the Interpreter

The variables that an engine sets, as properties of one object.

The object of the global variables is the first cell of the store, and a variable is one of
its properties. A property that is put twice is there once, with the second value, and two
properties are looked up in the same way whichever was put first. What is made of inert
sources stands behind all cells that were there, and sees none of them, so the object of
the global variables can be written to before it is made or after. And a store to which
cells were added that nobody refers to is a copy of what it was.

## Theorems

* `withVariable_eq`: A variable that is set, as a property of the global object.
* `grows_made`: What is made is behind the cells that were there.
* `unseen_made`: Nobody sees it who has no reference to it.
* `settingLaws`: Variables hold what was put into them last.
-/

namespace MapStyling

open WebLanguage

namespace WebScript

variable {S S' : String → Prop} {m : Nat} {c c' : Store} {name : String}
  {v : language.Value} {vs : List language.Value}

/-- Setting a variable puts a property in the global object. -/
theorem withVariable_eq (hc : c.Sound m) (hname : Settable (Units.ofString name)) (v : Value) :
    language.withVariable name v c = c.setGlobal (Units.ofString name) v := by
  change c.withProperty (.reference Store.globalObject) (Units.ofString name) v = _
  rw [Store.withProperty, hc.setProperty?_global hname]
  rfl

theorem sound_setGlobal (hc : c.Sound m) (hname : Settable (Units.ofString name)) {v : Value}
    (hv : v.Below c.size) : (c.setGlobal (Units.ofString name) v).Sound m :=
  (hc.setProperty? hv (hc.setProperty?_global hname v)).1

/-- A store that agrees with another one on the cells that both still get. -/
theorem alike_new (hsize : c'.size = c.size) :
    Store.Alike (fun a => c.size ≤ a) id c c' where
  strictMono := strictMono_id
  globalObject := rfl
  scriptScope := rfl
  next := fun _ _ => by rw [hsize]; rfl
  fresh := fun _ ha => ha
  parents := fun a b ha hab => by
    rw [Store.parent_reference_of_size_le ha] at hab
    cases hab
  cells := fun a ha => by
    have hnone : c.cells[a]? = none := Array.getElem?_eq_none ha
    have hnone' : c'.cells[a]? = none := Array.getElem?_eq_none (hsize.trans_le ha)
    rw [id, hnone, hnone']
    exact .none

/-- What operations make of two stores, when they begin with nothing. -/
theorem related_after {D : Nat → Prop} {ρ : Nat → Nat} (hc : Store.Twin D 0 ρ c c')
    (operations : List Operation) (hmakes : ∀ o ∈ operations, o.Makes Inert) :
    let h : Holding language := ⟨c, []⟩
    let h' : Holding language := ⟨c', []⟩
    replies operations h' = replies operations h ∧
      Related D 0 ρ (Holding.after operations h) (Holding.after operations h') := by
  intro h h'
  have hstart : Related D 0 ρ h h' := ⟨hc, rfl, fun _ hv => absurd hv List.not_mem_nil⟩
  clear_value h h'
  induction operations generalizing h h' with
  | nil => exact ⟨rfl, hstart⟩
  | cons o rest ih =>
      rcases List.forall_mem_cons.mp hmakes with ⟨ho, hrest⟩
      rcases (bisimulation_make D ρ).step _ _ hstart o ho with ⟨hreply, hafter⟩
      rcases ih hrest _ _ hafter with ⟨hreplies, hrelated⟩
      exact ⟨congrArg₂ List.cons hreply hreplies, hrelated⟩

/-- One more operation puts its cells behind those that were there. -/
theorem grows_make {h : Holding language} (hg : c.Grows h.context)
    (hr : Related (fun a => c.size ≤ a) 0 id h h) {o : Operation} (ho : o.Makes Inert) :
    c.Grows (o.perform h).2.context := by
  have hset : ∀ (i : Nat) (n : Units) (v : Value),
      c.Grows (Store.withProperty (h.value i) n v h.context) := by
    intro i n v
    unfold Store.withProperty
    rcases hs : Store.setProperty? h.context (h.value i) n v with _ | s
    · exact hg
    · exact hg.setProperty? (hr.held_value i).2 hs
  cases o with
  | newArray | newObject => exact hg.add _
  | setElement a i v => exact hset a _ _
  | setField a n v => exact hset a _ _
  | evaluate source =>
      change c.Grows ((evaluateSource source).run h.context).2
      rcases run_evaluateSource_of_inert ho with hfault | ⟨e, -, hrun⟩
      · rw [hfault]
        exact hg
      · rw [hrun]
        exact hg.trans (grows_evaluateLiteral e _)
  | constant | look => exact hg
  | _ => exact ho.elim

/-- What is made is behind the cells that were there. -/
theorem grows_made (hc : c.Sound 0) {m : Holding language}
    (hm : Reached (Operation.Makes Inert) ⟨c, []⟩ m) :
    c.Grows m.context ∧ Related (fun a => c.size ≤ a) 0 id m m := by
  induction hm with
  | refl =>
      exact ⟨.refl c, ⟨hc, alike_new rfl⟩, rfl, fun _ hv => absurd hv List.not_mem_nil⟩
  | perform o ho _ ih =>
      exact ⟨grows_make ih.1 ih.2 ho, ((bisimulation_make _ id).step _ _ ih.2 o ho).2⟩

theorem reached_after (operations : List Operation) (hmakes : ∀ o ∈ operations, o.Makes Inert)
    (h : Holding language) : Reached (Operation.Makes Inert) h (Holding.after operations h) := by
  induction operations using List.reverseRecOn with
  | nil => exact .refl
  | append_singleton rest o ih =>
      rw [Holding.after_concat]
      refine .perform o (hmakes o (List.mem_append_right _ List.mem_cons_self)) (ih fun p hp => ?_)
      exact hmakes p (List.mem_append_left _ hp)

/-- A store to which cells were added is a copy of what it was, for the values from before. -/
theorem related_grown (hc : c.Sound 0) (hg : c.Grows c')
    (hvs : ∀ v ∈ vs, Value.Below c.size v) :
    ∃ ρ, Related everywhere 0 ρ ⟨c, vs⟩ ⟨c', vs⟩ := by
  have halike := (Store.Alike.refl c).of_grown hc hg.size_le fun a _ ha => hg.cells a ha
  refine ⟨_, ⟨hc, halike⟩, ?_, fun v hv => ⟨hvs v hv, Value.in_everywhere _⟩⟩
  refine (List.map_id vs).symm.trans (List.map_congr_left fun v hv => ?_)
  exact (Value.moved_id v).symm.trans (Value.moved_congr fun a ha => (if_pos (hvs v hv a ha)).symm)

/-- Nobody sees what is made who has no reference to it. -/
theorem unseen_made {made : String → Prop} (hmade : ∀ source, made source → Inert source) :
    language.Unseen (Operation.Allowed S) S' made := by
  intro h hh m hm
  rcases sound_common hh with ⟨hsound, hvs⟩
  have hinert : ∀ o : Operation, o.Makes made → o.Makes Inert := by
    intro o ho
    cases o with
    | evaluate source => exact hmade source ho
    | _ => exact ho
  rcases related_grown hsound (grows_made hsound (hm.mono hinert)).1 hvs with ⟨ρ, hrelated⟩
  exact hrelated.alike S'

/-- The second value of a variable counts. -/
theorem overwritten (hname : Settable (Units.ofString name)) :
    language.Overwritten (Operation.Allowed S) S' name := by
  intro h hh v hv w hw
  rcases sound_common hh with ⟨hsound, hvs⟩
  change Alike S' ⟨language.withVariable name w h.context, _⟩
    ⟨language.withVariable name w (language.withVariable name v h.context), _⟩
  rw [withVariable_eq hsound hname v, withVariable_eq hsound hname w,
    withVariable_eq (sound_setGlobal hsound hname (hvs v hv)) hname w, Store.setGlobal_setGlobal]
  exact .refl _

/-- Variables of two names can be set in either order. -/
theorem exchanged {other : String} (hname : Settable (Units.ofString name))
    (hother : Settable (Units.ofString other)) (hne : name ≠ other) :
    language.Exchanged (Operation.Allowed S) S' name other := by
  intro h hh v hv w hw
  rcases sound_common hh with ⟨hsound, hvs⟩
  have hw' := sound_setGlobal hsound hother (hvs w hw)
  have hv' := sound_setGlobal hsound hname (hvs v hv)
  rw [withVariable_eq hsound hother w, withVariable_eq hw' hname v,
    withVariable_eq hsound hname v, withVariable_eq hv' hother w]
  have htwice := sound_setGlobal hw' hname ((hvs v hv).mono (Store.size_setGlobal ..).ge)
  have halike := hsound.alike_exchanged (fun heq => hne (Units.ofString_injective heq)) v w
  refine (related_of_alike htwice halike fun u hu => ?_).alike S'
  rw [Store.size_setGlobal, Store.size_setGlobal]
  exact hvs u hu

/-- A variable can be set before something is made or after. -/
theorem apart (hname : Settable (Units.ofString name)) :
    language.Apart (Operation.Allowed S) Inert name := by
  intro h hh v hv operations hmakes c made made'
  rcases sound_common hh with ⟨hsound, hvs⟩
  have hc : c = Store.setGlobal h.context (Units.ofString name) v := withVariable_eq hsound hname v
  have hset : Store.Sound 0 c := by
    rw [hc]
    exact sound_setGlobal hsound hname (hvs v hv)
  have hsize : Store.size c = Store.size h.context := by
    rw [hc, Store.size_setGlobal]
  -- What is made on either side is the same, and refers to nothing from before.
  rcases related_after ⟨hsound, alike_new hsize⟩ operations hmakes with ⟨hreplies, hrelated⟩
  rcases grows_made hsound (reached_after operations hmakes ⟨h.context, []⟩) with ⟨hgrows, -⟩
  rcases grows_made hset (reached_after operations hmakes ⟨c, []⟩) with ⟨hgrows', -⟩
  refine ⟨hreplies, ?_⟩
  change Related _ 0 id made made' at hrelated
  change Store.Grows h.context made.context at hgrows
  change Store.Grows c made'.context at hgrows'
  have hmade : Store.Sound 0 made.context := hrelated.twin.sound
  have hbelow : Value.Below (Store.size made.context) v := (hvs v hv).mono hgrows.size_le
  rw [withVariable_eq hmade hname v]
  have hnew : Store.Alike (fun a => Store.size h.context ≤ a) id
      (Store.setGlobal made.context (Units.ofString name) v) made'.context := by
    refine hrelated.twin.alike.left (Store.size_setGlobal ..) fun a ha => ?_
    have hpos := Nat.lt_trans Nat.zero_lt_one hsound.scriptScope_lt
    exact Store.getElem?_setGlobal_of_ne _ _ _ (Nat.lt_of_lt_of_le hpos ha)
  have halike := Store.Grows.alike (hc ▸ hgrows.setGlobal (Units.ofString name) v) hgrows' (by
    rw [hsize]
    exact hnew)
  have hvalues : made'.values = made.values := hrelated.values.trans (map_moved_id _)
  rw [hvalues]
  refine (related_of_alike (sound_setGlobal hmade hname hbelow) halike fun u hu => ?_).alike Inert
  rw [Store.size_setGlobal]
  rcases List.mem_append.mp hu with hold | hmem
  · exact (hvs u hold).mono hgrows.size_le
  · exact (hrelated.held u hmem).1

theorem settable_variableNames : ∀ name ∈ WebEngine.variableNames,
    Settable (Units.ofString name) := by
  have hnames : ∀ name ∈ WebEngine.variableNames, Units.ofString name ≠ parentName ∧
      Store.constants.lookup (Units.ofString name) = none := by
    decide +kernel
  exact fun name hname => ⟨(hnames name hname).1, (hnames name hname).2⟩

/-- Variables hold what was put into them last, and nobody can tell more than that. -/
theorem settingLaws : language.SettingLaws Inert WebEngine.variableNames where
  unseen := unseen_made fun _ hs => hs
  overwritten := fun n hn => overwritten (settable_variableNames n hn)
  exchanged := fun n hn k hk hne =>
    exchanged (settable_variableNames n hn) (settable_variableNames k hk) hne
  apart := fun n hn => apart (settable_variableNames n hn)

end WebScript

end MapStyling
