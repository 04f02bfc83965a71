import MapStyling.Proofs.WebLanguage.Looks
import MapStyling.Proofs.WebScript.Settings

/-!
# Looks of the Interpreter's Values

What values of the interpreter look like, wherever they are.

A value looks like the cell that it refers to. The two cells that all scripts share are not
seen, since every store has other things in them. What is made of inert sources is a copy
of what the same operations make of the store before the first script, so it looks the
same in all stores.

## Main definitions

* `Store.look`: What a value looks like.

## Theorems

* `Store.Alike.look`: Copies look like what they are copies of.
* `lookLaws`: What is made looks the same everywhere, and is there when it is put into a variable.
-/

namespace MapStyling

open WebLanguage

namespace WebScript

/-- What a cell looks like. An element that is not there reads as the undefined value. -/
def Cell.look : Cell → Look Value Function
  | .object .plain _ properties => .object fun name => properties.lookup (Units.ofString name)
  | .object (.array n) _ properties => .array <|
    (List.range n).map fun i => (properties.lookup (indexName i)).getD .undefined
  | .object (.closure f _ _) _ _ => .function f
  | .scope _ => .other

/-- What a value looks like. -/
def Store.look (s : Store) : Value → Look Value Function
  | .null => .null
  | .boolean b => .truth b
  | .number v => .number v
  | .text u => .text (Units.display u)
  | .reference a =>
    if a ≤ Store.scriptScope then .other else ((s.cells[a]?).map Cell.look).getD .other
  | .undefined | .method _ _ | .common _ => .other

namespace Store

variable {s t : Store}

theorem look_reference {a : Nat} {c : Cell} (ha : unshared a) (hc : s.cells[a]? = some c) :
    s.look (.reference a) = c.look := by
  rw [look, if_neg (Nat.not_le.mpr ha), hc]
  rfl

/-- A value looks the same if its cell is the same. -/
theorem look_congr {v : Value}
    (h : ∀ a, v.address? = some a → unshared a → t.cells[a]? = s.cells[a]?) :
    t.look v = s.look v := by
  cases v with
  | reference a =>
      simp only [look]
      split
      · rfl
      · next ha => rw [h a rfl (Nat.not_le.mp ha)]
  | _ => rfl

/-- Only an unshared object looks like a container. -/
theorem eq_reference_of_look {v : Value} (h : (s.look v).IsContainer) :
    ∃ a c, v = .reference a ∧ unshared a ∧ s.cells[a]? = some c ∧ s.look v = c.look := by
  cases v with
  | reference a =>
      by_cases ha : a ≤ Store.scriptScope
      · rw [look, if_pos ha] at h
        exact h.elim
      · rcases hc : s.cells[a]? with _ | c
        · rw [look, if_neg ha, hc] at h
          exact h.elim
        · exact ⟨a, c, rfl, Nat.not_le.mp ha, hc, look_reference (Nat.not_le.mp ha) hc⟩
  | _ => exact h.elim

/-- What a cell shows that it holds is among its properties. -/
theorem mem_addresses_of_holds {c : Cell} {w : Value} (h : c.look.Holds w) {b : Nat}
    (hb : w.address? = some b) : b ∈ c.addresses := by
  cases c with
  | scope vs => exact h.elim
  | object shape p properties =>
      cases shape with
      | plain =>
          rcases h with ⟨name, hname⟩
          exact mem_addresses_of_property (Entries.mem_of_lookup hname) hb
      | array n =>
          rcases List.mem_map.mp h with ⟨i, _, hi⟩
          rcases hlookup : properties.lookup (indexName i) with _ | u
          · rw [hlookup] at hi
            rw [← hi] at hb
            cases hb
          · rw [hlookup, Option.getD_some] at hi
            rw [hi] at hlookup
            exact mem_addresses_of_property (Entries.mem_of_lookup hlookup) hb
      | closure f scopes self => exact h.elim

/-- All that a value shows that it holds is in the store. -/
theorem Sound.below_of_holds {m : Nat} (h : s.Sound m) {v w : Value} (hw : (s.look v).Holds w) :
    w.Below s.size := by
  rcases eq_reference_of_look hw.isContainer with ⟨a, c, rfl, -, hc, hlook⟩
  rw [hlook] at hw
  exact fun b hb => h.closed a c hc b (mem_addresses_of_holds hw hb)

end Store

variable {ρ : Nat → Nat}

theorem getD_moved (v : Option Value) :
    (v.map (Value.moved ρ)).getD .undefined = (v.getD .undefined).moved ρ := by
  cases v <;> rfl

/-- A cell and its copy look the same, and what they hold belongs together. -/
theorem Cell.Alike.look {c d : Cell} (h : Cell.Alike ρ c d) :
    Look.Rel (fun v w => w = v.moved ρ) c.look d.look := by
  cases h with
  | scope vs => exact .other
  | object shape parent hproperties =>
    rename_i properties others
    cases shape with
    | plain =>
        refine .object fun name => ?_
        rw [hproperties]
        rcases properties.lookup (Units.ofString name) with _ | v
        · exact .none
        · exact .some rfl
    | array n =>
        refine .array (List.forall₂_map_left_iff.mpr (List.forall₂_map_right_iff.mpr ?_))
        exact List.forall₂_same.mpr fun i _ => by rw [hproperties, getD_moved]
    | closure f scopes self => exact .function f

/-- A value and its copy look the same, and what they hold belongs together. -/
theorem Store.Alike.look {s t : Store} (h : Store.Alike unshared ρ s t) (v : Value) :
    Look.Rel (fun v w => w = v.moved ρ) (s.look v) (t.look (v.moved ρ)) := by
  cases v with
  | reference a =>
      by_cases ha : unshared a
      · have hmoved : unshared (ρ a) := by
          have hlt : ρ Store.scriptScope < ρ a := h.strictMono ha
          rwa [h.scriptScope] at hlt
        rw [Value.moved_reference, Store.look, Store.look, if_neg (Nat.not_le.mpr ha),
          if_neg (Nat.not_le.mpr hmoved)]
        rcases h.cells_cases ha with ⟨hc, hd⟩ | ⟨c, d, hc, hd, hcd⟩
        · rw [hc, hd]
          exact .other
        · rw [hc, hd]
          exact hcd.look
      · -- The shared cells are where they are, and are not seen.
        have hle : a ≤ Store.scriptScope := Nat.not_lt.mp ha
        have hle' : ρ a ≤ Store.scriptScope := h.scriptScope ▸ h.strictMono.monotone hle
        rw [Value.moved_reference, Store.look, Store.look, if_pos hle, if_pos hle']
        exact .other
  | null => exact .null
  | boolean b => exact .truth b
  | number x => exact .number x
  | text u => exact .text _
  | undefined | method | common => exact .other

/-- What operations make of a sound store looks like what they make of the first one. -/
theorem made_looksAlike {c : Store} (hc : c.Sound 0) {operations : List Operation}
    (hmakes : ∀ o ∈ operations, o.Makes Inert) :
    let h₀ : Holding language := ⟨.initial, []⟩
    let h : Holding language := ⟨c, []⟩
    let m₀ := Holding.after operations h₀
    let m := Holding.after operations h
    replies operations h = replies operations h₀ ∧
      List.Forall₂ (LooksAlike (L := language) Store.look m₀.context m.context) m₀.values
        m.values := by
  intro h₀ h m₀ m
  have hinitial := Store.sound_initial (Nat.zero_le 2)
  rcases hinitial.alike_shared rfl hc with ⟨ρ, halike⟩
  rcases related_after ⟨hinitial, halike⟩ operations hmakes with ⟨hreplies, hrelated⟩
  change Related unshared 0 ρ m₀ m at hrelated
  refine ⟨hreplies, ?_⟩
  rw [hrelated.values, List.forall₂_map_right_iff]
  refine List.forall₂_same.mpr fun v _ => ⟨fun v w => w = v.moved ρ, rfl, ?_⟩
  rintro u w rfl
  exact hrelated.twin.alike.look u

/-- What is made looks the same wherever it is made, and is there when it is put into a
    variable. -/
def lookLaws : language.LookLaws (fun _ => True) Inert globalName where
  Function := Function
  look := Store.look
  allowed := fun _ _ => trivial
  made := by
    intro h h' hh hh' operations hmakes m m'
    let m₀ := Holding.after operations (⟨.initial, []⟩ : Holding language)
    rcases made_looksAlike (sound_common hh).1 hmakes with ⟨hreplies, hlooks⟩
    rcases made_looksAlike (sound_common hh').1 hmakes with ⟨hreplies', hlooks'⟩
    refine ⟨hreplies'.trans hreplies.symm, ?_⟩
    have htrans : ∀ u v w : language.Value, LooksAlike Store.look m₀.context m.context v u →
        LooksAlike Store.look m₀.context m'.context v w →
        LooksAlike Store.look m.context m'.context u w := fun _ _ _ hv hw => hv.symm.trans hw
    exact forall₂_trans htrans hlooks.flip hlooks'
  kept := by
    intro h hh operations hmakes
    have hsound := (sound_common hh).1
    have hgrows := (grows_made hsound (reached_after operations hmakes ⟨h.context, []⟩)).1
    have hname := settable_variableNames globalName WebEngine.mem_variableNames.2.1
    change Option.Rel _ (Store.global? h.context (Units.ofString globalName))
      (Store.global? (Holding.after operations ⟨h.context, []⟩).context (Units.ofString globalName))
    rw [hgrows.global? hsound hname]
    rcases hv : Store.global? h.context (Units.ofString globalName) with _ | v
    · exact .none
    · -- What was in the store looks as it did, and refers to nothing that came later.
      refine .some ⟨fun u w => w = u ∧ u.Below (Store.size h.context),
        ⟨rfl, hsound.below_global? hv⟩, ?_⟩
      rintro u w ⟨rfl, hu⟩
      rw [Store.look_congr fun a ha _ => hgrows.cells a (hu a ha)]
      exact .refl fun _ hw => ⟨rfl, hsound.below_of_holds hw⟩
  installed := by
    intro h hh operations hmakes m v hv c
    have hsound := (sound_common hh).1
    have hmade := (grows_made hsound (reached_after operations hmakes ⟨h.context, []⟩)).2
    have hname := settable_variableNames globalName WebEngine.mem_variableNames.2.1
    have hc : c = Store.setGlobal m.context (Units.ofString globalName) v :=
      withVariable_eq hmade.twin.sound hname v
    rw [hc]
    refine ⟨v, Store.global?_of_own? hname (hmade.twin.sound.own?_setGlobal _ v), Eq, rfl, ?_⟩
    rintro u w rfl
    rw [Store.look_congr fun a _ ha => Store.getElem?_setGlobal_of_ne _ _ _
      (Nat.lt_trans Nat.zero_lt_one ha)]
    exact .refl fun _ _ => rfl

end WebScript

end MapStyling
