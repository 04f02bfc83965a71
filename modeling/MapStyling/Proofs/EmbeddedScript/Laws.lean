import MapStyling.EmbeddedScript.Language
import MapStyling.Proofs.EmbeddedEngine.Questions
import MapStyling.Proofs.EmbeddedLanguage.Functions
import MapStyling.Proofs.EmbeddedLanguage.Scopes
import MapStyling.Proofs.EmbeddedLanguage.Shapes
import MapStyling.Proofs.EmbeddedScript.Locals

/-!
# Laws of Embedded Scripts

The interpreter of embedded scripts as one of the languages that engines rely on.

Its scopes are lists of variables, so rewinding drops what is in front, and setting a
variable writes where its name comes first. Its function values are names by definition,
and its definitions are a list of which the first that fits a call is taken.

## Main definitions

* `functionLaws`: Functions are found by name and number of arguments.
* `isLocalQuestion`: Questions whose scripts assign to nothing but what they declare.

## Theorems

* `shapeLaws`, `scopeLaws`: Values show what they were made of, and scopes are known by
  their variables.
* `leavesShared_of_local`: Such questions leave what is shared alone.
-/

namespace MapStyling

namespace Entries

variable {κ α : Type} [DecidableEq κ]

/-- An entry that is there, and any other one, can be set in any order. -/
theorem put_comm {name other : κ} (hne : name ≠ other) (value w : α) {entries : List (κ × α)}
    (h : other ∈ entries.map Prod.fst) :
    put name value (put other w entries) = put other w (put name value entries) := by
  induction entries with
  | nil => exact absurd h List.not_mem_nil
  | cons e rest ih =>
      obtain ⟨n, v⟩ := e
      by_cases hn : n = other
      · -- The entry that is there comes first, and the other one is set behind it.
        have hn' : ¬n = name := fun heq => hne (heq.symm.trans hn)
        simp only [put, if_pos hn, if_neg hn']
      · have hrest : other ∈ rest.map Prod.fst :=
          (List.mem_cons.mp h).resolve_left fun heq => hn heq.symm
        simp only [put, if_neg hn]
        split
        · simp only [put, if_neg hn]
        · simp only [put, if_neg hn, ih hrest]

/-- Setting an entry to what it is. -/
theorem put_of_lookup [BEq κ] [LawfulBEq κ] {name : κ} {value : α} {entries : List (κ × α)}
    (h : entries.lookup name = some value) : put name value entries = entries := by
  induction entries with
  | nil => cases h
  | cons e rest ih =>
      obtain ⟨n, v⟩ := e
      rw [List.lookup_cons] at h
      by_cases hn : n = name
      · rw [hn, BEq.rfl] at h
        rw [put, if_pos hn, Option.some.inj h]
      · rw [beq_eq_false_iff_ne.mpr (Ne.symm hn)] at h
        rw [put, if_neg hn, ih h]

omit [DecidableEq κ] in
theorem mem_of_lookup_isSome [BEq κ] [LawfulBEq κ] {name : κ} {entries : List (κ × α)}
    (h : (entries.lookup name).isSome = true) : name ∈ entries.map Prod.fst := by
  obtain ⟨value, hvalue⟩ := Option.isSome_iff_exists.mp h
  exact List.mem_map_of_mem (f := Prod.fst) (mem_of_lookup hvalue)

end Entries

namespace EmbeddedScript

theorem shapeLaws : language.ShapeLaws where
  unit := rfl
  boolean _ := rfl
  number _ := rfl
  text _ := rfl
  array _ := rfl
  map entries h := congrArg EmbeddedLanguage.Shape.map (Entries.sort_eq h)
  increasing v entries h := by
    cases v <;> cases h
    exact Entries.increasing_sort _

section

variable {s : Scope} {name other : String} {v : Value}

theorem lookup_setVariable_self (name : String) (v : Value) (s : Scope) :
    ((Scope.setVariable name v s).lookup name).map Slot.value = some v := by
  unfold Scope.setVariable
  split
  · rw [Entries.lookup_put_self]
    rfl
  · rw [List.lookup_cons_self]
    rfl

theorem lookup_setVariable_of_ne (h : other ≠ name) (v : Value) (s : Scope) :
    (Scope.setVariable name v s).lookup other = s.lookup other := by
  unfold Scope.setVariable
  split
  · exact Entries.lookup_put_of_ne _ h s
  · rw [List.lookup_cons, beq_eq_false_iff_ne.mpr h]

/-- A variable that is there is set in its place. -/
theorem setVariable_of_lookup {slot : Slot} (h : s.lookup name = some slot) (v : Value) :
    Scope.setVariable name v s = Entries.put name { slot with value := v } s := by
  rw [Scope.setVariable, h]

theorem setVariable_setVariable (name : String) (v w : Value) (s : Scope) :
    Scope.setVariable name w (Scope.setVariable name v s) = Scope.setVariable name w s := by
  rcases hs : s.lookup name with _ | slot
  · have hset : Scope.setVariable name v s = (name, ⟨v, false⟩) :: s := by
      rw [Scope.setVariable, hs]
    have hset' : Scope.setVariable name w s = (name, ⟨w, false⟩) :: s := by
      rw [Scope.setVariable, hs]
    rw [hset, hset', setVariable_of_lookup List.lookup_cons_self, Entries.put, if_pos rfl]
  · rw [setVariable_of_lookup hs, setVariable_of_lookup hs,
      setVariable_of_lookup (Entries.lookup_put_self ..), Entries.put_put]

theorem setVariable_comm {n m : String} (hne : n ≠ m) (v w : Value) {slotn slotm : Slot}
    (hn : s.lookup n = some slotn) (hm : s.lookup m = some slotm) :
    Scope.setVariable n v (Scope.setVariable m w s)
      = Scope.setVariable m w (Scope.setVariable n v s) := by
  have hn' : (Scope.setVariable m w s).lookup n = some slotn :=
    (lookup_setVariable_of_ne hne w s).trans hn
  have hm' : (Scope.setVariable n v s).lookup m = some slotm :=
    (lookup_setVariable_of_ne (Ne.symm hne) v s).trans hm
  rw [setVariable_of_lookup hn', setVariable_of_lookup hm', setVariable_of_lookup hm,
    setVariable_of_lookup hn]
  exact Entries.put_comm hne _ _ (Entries.mem_of_lookup_isSome (by rw [hm]; rfl))

/-- What is in front of a scope was declared on top of it. -/
theorem declares_append (locals : Scope) (s : Scope) : language.Declares s (locals ++ s) := by
  induction locals with
  | nil => exact EmbeddedLanguage.Declares.refl (L := language) s
  | cons first rest ih => exact ih.declare first.1 first.2.isConstant first.2.value

theorem suffix_of_declares {s t : language.Scope} (h : language.Declares s t) :
    @List.IsSuffix (String × Slot) s t := by
  induction h with
  | refl => exact List.suffix_refl (α := String × Slot) s
  | declare _ name isConstant v ih => exact List.IsSuffix.trans ih (List.suffix_cons _ _)

end

theorem lookup_declare (s : Scope) (n : String) (c : Bool) (v : Value) (m : String) :
    (List.lookup m ((n, (⟨v, c⟩ : Slot)) :: s)).map Slot.value
      = if m = n then some v else (s.lookup m).map Slot.value := by
  rw [List.lookup_cons]
  by_cases hm : m = n
  · rw [beq_iff_eq.mpr hm, if_pos hm]
    rfl
  · rw [beq_eq_false_iff_ne.mpr hm, if_neg hm]

theorem lookup_setVariable (s : Scope) (n : String) (v : Value) (m : String) :
    ((Scope.setVariable n v s).lookup m).map Slot.value
      = if m = n then some v else (s.lookup m).map Slot.value := by
  split
  · next h => rw [h, lookup_setVariable_self]
  · next h => rw [lookup_setVariable_of_ne h]

theorem variableLaws : language.VariableLaws where
  getVariable?_declare := lookup_declare
  getVariable?_setVariable := lookup_setVariable
  setVariable_setVariable s n v w := setVariable_setVariable n v w s

/-- What is in front of a scope is dropped from it. -/
theorem back_of_suffix {s t : Scope} (h : s <:+ t) : Scope.back s.length t = s := by
  obtain ⟨locals, rfl⟩ := h
  rw [Scope.back, List.length_append, Nat.add_sub_cancel, List.drop_left]

theorem scopeLaws : language.ScopeLaws where
  toVariableLaws := variableLaws
  rewinds _ _ h := back_of_suffix (suffix_of_declares h)
  setVariable_comm s n m v w hne hn hm := by
    obtain ⟨_, hn⟩ := Option.isSome_iff_exists.mp (Option.isSome_map.symm.trans hn)
    obtain ⟨_, hm⟩ := Option.isSome_iff_exists.mp (Option.isSome_map.symm.trans hm)
    exact setVariable_comm hne v w hn hm
  setVariable_self s n v h := by
    obtain ⟨slot, hslot, rfl⟩ := Option.map_eq_some_iff.mp h
    exact (setVariable_of_lookup hslot slot.value).trans (Entries.put_of_lookup hslot)

/-- Definitions of a script come before those of its library. -/
theorem find?_merge (library own : Library) (name : String) (count : Nat) :
    (library.merge own).find? name count
      = (own.find? name count).or (library.find? name count) := by
  have hfits : ∀ x : Definition,
      decide ((own.find? x.name x.parameters.length).isNone = true ∧ x.fits name count = true)
        = ((own.find? name count).isNone && x.fits name count) := by
    intro x
    rw [Bool.decide_and, Bool.decide_eq_true, Bool.decide_eq_true]
    rcases hx : x.fits name count with _ | _
    · rw [Bool.and_false, Bool.and_false]
    · rw [Definition.fits, Bool.and_eq_true, decide_eq_true_eq, decide_eq_true_eq] at hx
      rw [hx.1, hx.2]
  change List.find? _ (_ ++ own) = _
  rw [List.find?_append, List.find?_filter, funext hfits]
  change (List.find? _ library).or (own.find? name count) = _
  rcases own.find? name count with _ | d
  · rw [Option.or_none, Option.none_or]
    rfl
  · -- What the script defines itself is left out of the library.
    have hnone : List.find? (fun x => (some d).isNone && x.fits name count) library = none :=
      List.find?_eq_none.mpr fun _ _ => Bool.false_ne_true
    rw [hnone, Option.none_or, Option.some_or]

/-- The name that a function value is. -/
def Value.pointer? : Value → Option String
  | function name => some name
  | _ => none

/-- Functions are found by name and number of arguments. -/
def functionLaws : language.FunctionLaws where
  Definition := Definition
  name := Definition.name
  arity d := d.parameters.length
  find? s := s.definitions.find?
  pointer? := Value.pointer?
  called s v count := v.pointer?.bind fun n => s.definitions.find? n count
  called_eq s v n count h := by rw [h, Option.bind_some]
  find?_noScript _ _ := rfl
  find?_merge library s n count := find?_merge library.definitions s.definitions n count
  find?_definitionsOnly _ _ _ := rfl

/-- Whether a question runs a script that assigns to nothing but what it declares, if it runs
    one at all. -/
def isLocalQuestion (e : EmbeddedEngine language) (q : Question) : Bool :=
  (e.functions.get? q.index).all fun script : Script => bodyIsLocal [] script.body

/-- Such a question leaves what is shared alone. -/
theorem leavesShared_of_local {e : EmbeddedEngine language} {q : Question}
    (h : isLocalQuestion e q = true) : e.LeavesShared q := by
  intro script hscript
  rw [isLocalQuestion, hscript] at h
  have hlocal : bodyIsLocal [] (Script.body script) = true := h
  obtain ⟨locals, hlocals⟩ := suffix_of_local hlocal e.scope
  have hrun : ((language.run script).run e.scope).2 = ((run script).run e.scope).2 := rfl
  rw [hrun, ← hlocals]
  exact declares_append locals e.scope

end EmbeddedScript

end MapStyling
