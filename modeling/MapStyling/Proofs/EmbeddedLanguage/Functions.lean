import Mathlib.Data.List.Nodup
import MapStyling.Engine.EmbeddedLanguage

/-!
# Functions of Embedded Languages

What an engine relies on in the functions of its language.

A script has definitions, and a function value is not one of them: it is a name, if it
carries no arguments of its own. When a script calls such a value, the name is looked up
among the definitions of this script, together with the number of arguments. A script that
is merged with a library has the definitions of both, its own before those of the library.

## Main definitions

* `EmbeddedLanguage.FunctionLaws`: Functions are found by name and number of arguments.
* `FunctionLaws.Only`: Scripts with one definition.

## Theorems

* `FunctionLaws.find?_foldl_merge`: What a library of such scripts has.
-/

namespace MapStyling

namespace EmbeddedLanguage

/-- A language in which a function value can be a name, that is looked up among the definitions
    of the script that calls it. -/
structure FunctionLaws (L : EmbeddedLanguage) : Type 1 where
  Definition : Type
  name : Definition → String
  /-- Number of parameters. -/
  arity : Definition → Nat
  /-- The definition of a script under a name, for so many arguments. -/
  find? : L.Script → String → Nat → Option Definition
  /-- The name that a function value is, if it is nothing else. -/
  pointer? : L.Value → Option String
  /-- The definition whose body runs when a script calls a value with so many arguments. -/
  called : L.Script → L.Value → Nat → Option Definition
  called_eq : ∀ s v n count, pointer? v = some n → called s v count = find? s n count
  find?_noScript : ∀ n count, find? L.noScript n count = none
  /-- Definitions come before those that the script is merged with. -/
  find?_merge : ∀ library s n count, find? (L.merge library s) n count
    = (find? s n count).or (find? library n count)
  find?_definitionsOnly : ∀ s n count, find? (L.definitionsOnly s) n count = find? s n count

namespace FunctionLaws

variable {L : EmbeddedLanguage} (F : L.FunctionLaws)

/-- Whether a definition is the one of a call. -/
def Fits (n : String) (count : Nat) (d : F.Definition) : Prop := F.name d = n ∧ F.arity d = count

instance (n : String) (count : Nat) : DecidablePred (F.Fits n count) := fun _ =>
  inferInstanceAs (Decidable (_ ∧ _))

/-- Scripts with one definition. -/
def Only (s : L.Script) (d : F.Definition) : Prop :=
  ∀ n count, F.find? s n count = if F.Fits n count d then some d else none

variable {F}

/-- Scripts with one definition each, merged one over the other, where names differ: all the
    definitions are there. -/
theorem find?_foldl_merge {scripts : List L.Script} {definitions : List F.Definition}
    (h : List.Forall₂ F.Only scripts definitions)
    (hdistinct : (definitions.map F.name).Nodup) :
      ∀ (library : L.Script) (n : String) (count : Nat),
    F.find? ((scripts.map L.definitionsOnly).foldl L.merge library) n count
      = (definitions.find? (F.Fits n count)).or (F.find? library n count) := by
  induction h with
  | nil => exact fun library n count => (Option.none_or).symm
  | @cons s d scripts definitions hs hrest ih =>
      intro library n count
      rcases List.nodup_cons.mp hdistinct with ⟨hnew, hdistinct⟩
      rw [List.map_cons, List.foldl_cons, ih hdistinct, F.find?_merge,
        F.find?_definitionsOnly, hs n count, List.find?_cons]
      by_cases hfits : F.Fits n count d
      · -- No definition behind it has this name.
        have hnone : definitions.find? (F.Fits n count) = none := by
          refine List.find?_eq_none.mpr fun x hx hxfits => hnew ?_
          rw [hfits.1, ← (of_decide_eq_true hxfits).1]
          exact List.mem_map_of_mem hx
        rw [hnone, if_pos hfits, decide_eq_true hfits]
        rfl
      · rw [if_neg hfits, decide_eq_false hfits]
        rfl

/-- A definition whose name no other has is found by its name. -/
theorem find?_of_nodup {definitions : List F.Definition} {d : F.Definition} (hd : d ∈ definitions)
    (hdistinct : (definitions.map F.name).Nodup) (count : Nat) :
    definitions.find? (F.Fits (F.name d) count) = if count = F.arity d then some d else none := by
  have hunique : ∀ x ∈ definitions, F.name x = F.name d → x = d := fun x hx hname =>
    List.inj_on_of_nodup_map hdistinct hx hd hname
  by_cases hcount : count = F.arity d
  · rw [if_pos hcount]
    have hsome : (definitions.find? (F.Fits (F.name d) count)).isSome = true :=
      List.find?_isSome.mpr ⟨d, hd, decide_eq_true ⟨rfl, hcount.symm⟩⟩
    rcases Option.isSome_iff_exists.mp hsome with ⟨x, hx⟩
    have hfound := List.find?_some hx
    have hfits := of_decide_eq_true hfound
    exact hx.trans (congrArg some (hunique x (List.mem_of_find?_eq_some hx) hfits.1))
  · rw [if_neg hcount]
    refine List.find?_eq_none.mpr fun x hx hxfits => ?_
    have hfits := of_decide_eq_true hxfits
    rw [hunique x hx hfits.1] at hfits
    exact hcount hfits.2.symm

end FunctionLaws

end EmbeddedLanguage

end MapStyling
