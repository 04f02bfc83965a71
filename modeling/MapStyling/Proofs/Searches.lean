import MapStyling.Proofs.Bags

/-!
# Searching a Bag by Halves

A name among increasing entries, found without looking at all of them.

The entry in the middle says in which half of the entries a name has to be, so every look
leaves half as many. What is narrowed down in this way is the last entry whose name is not
behind the one that is searched. Either it has the name, or the name belongs right behind it,
or in front of all entries. This holds as long as the entries increase; of other entries the
search says nothing.

So a bag can be kept by place: a value is put over the old one or in between at the place
that the search gives, and an entry is taken out where it was found.

## Main definitions

* `Entries.narrow`: The halving.
* `Entries.search`: The place of a name, or the place where it belongs.
* `Entries.insertAt`, `Entries.lookupAt`, `Entries.removeAt`: Setting, reading and taking out
  by place.

## Theorems

* `Entries.search_of_mem`, `Entries.search_of_not_mem`: What a search finds.
* `Entries.insert_eq_insertAt`, `Entries.lookup_eq_lookupAt`, `Entries.filter_eq_removeAt`:
  Among increasing entries it is all one whether an entry is looked for by halves or from the
  first entry on.
-/

namespace MapStyling

namespace Entries

variable {α : Type} {name : String} {value : α} {entries before after : List (String × α)}

/-- The last of `size` entries from `base` on whose name is not behind the one searched, or
    `base` if there is none. -/
def narrow (name : String) (entries : List (String × α)) (base size : Nat) : Nat :=
  if 1 < size then
    let half := size / 2
    if entries[base + half]?.any fun e => name < e.1 then narrow name entries base (size - half)
    else narrow name entries (base + half) (size - half)
  else base
termination_by size

/-- The position of a name, or the one that it would take. -/
def search (name : String) (entries : List (String × α)) : Except Nat Nat :=
  let base := narrow name entries 0 entries.length
  match entries[base]? with
  | none => .error base
  | some e => if e.1 = name then .ok base else .error (if e.1 < name then base + 1 else base)

/-- Setting an entry over the one that is found, or putting it in where the name belongs. -/
def insertAt (name : String) (value : α) (entries : List (String × α)) : List (String × α) :=
  match search name entries with
  | .ok i => entries.set i (name, value)
  | .error i => entries.insertIdx i (name, value)

/-- The value at the place that is found. -/
def lookupAt (name : String) (entries : List (String × α)) : Option α :=
  match search name entries with
  | .ok i => entries[i]?.map Prod.snd
  | .error _ => none

/-- Taking out the entry that is found. -/
def removeAt (name : String) (entries : List (String × α)) : List (String × α) :=
  match search name entries with
  | .ok i => entries.eraseIdx i
  | .error _ => entries

/-- The halving comes to the end of the names that are not behind the one searched. The
    entries that are left reach over this end at every step, and they begin with one of the
    names in front of it unless nothing has been left out there. -/
theorem narrow_eq {count : Nat}
    (hcount : ∀ i (h : i < entries.length), entries[i].1 ≤ name ↔ i < count) (base size : Nat)
    (hbase : base = 0 ∨ base < count) (hend : count ≤ base + size)
    (hlength : base + size ≤ entries.length) : narrow name entries base size = count - 1 := by
  induction size using Nat.strong_induction_on generalizing base with
  | h size ih =>
      rw [narrow]
      split
      · next hsize =>
        have hhalf : base + size / 2 < entries.length := by omega
        simp only [List.getElem?_eq_getElem hhalf, Option.any_some, decide_eq_true_eq]
        -- Either the half in the middle is behind the end, or the search goes on from there.
        split
        · next hlt =>
          have hmiddle : ¬base + size / 2 < count := fun h =>
            not_le_of_gt hlt ((hcount _ hhalf).mpr h)
          exact ih (size - size / 2) (by omega) base hbase (by omega) (by omega)
        · next hle =>
          have hmiddle : base + size / 2 < count := (hcount _ hhalf).mp (not_lt.mp hle)
          exact ih (size - size / 2) (by omega) (base + size / 2) (Or.inr hmiddle) (by omega)
            (by omega)
      · omega

theorem narrow_append (hbefore : ∀ e ∈ before, e.1 ≤ name) (hafter : ∀ e ∈ after, name < e.1) :
    narrow name (before ++ after) 0 (before ++ after).length = before.length - 1 := by
  refine narrow_eq (fun i h => ?_) 0 _ (Or.inl rfl) (by simp) (Nat.le_of_eq (Nat.zero_add _))
  rw [List.getElem_append]
  split
  · next hi => exact iff_of_true (hbefore _ (List.getElem_mem hi)) hi
  · next hi => exact iff_of_false (not_le_of_gt (hafter _ (List.getElem_mem _))) hi

/-- A name is found where it is. -/
theorem search_of_mem (hbefore : ∀ e ∈ before, e.1 < name) (hafter : ∀ e ∈ after, name < e.1) :
    search name (before ++ (name, value) :: after) = .ok before.length := by
  -- The halving ends at the entry of the name, the last of those not behind it.
  have hle : ∀ e ∈ before ++ [(name, value)], e.1 ≤ name := fun e he =>
    (List.mem_append.mp he).elim (fun h => (hbefore e h).le)
      fun h => le_of_eq (congrArg Prod.fst (List.mem_singleton.mp h))
  have hlength : (before ++ [(name, value)]).length - 1 = before.length := by simp
  have hnarrow := narrow_append hle hafter
  rw [hlength, List.append_assoc, List.singleton_append] at hnarrow
  rw [search, hnarrow]
  simp only [List.getElem?_append_right (Nat.le_refl _), Nat.sub_self, List.getElem?_cons_zero,
    if_true]

/-- The place of a name that is missing is where the names behind it begin. -/
theorem search_of_not_mem (hbefore : ∀ e ∈ before, e.1 < name)
    (hafter : ∀ e ∈ after, name < e.1) :
    search name (before ++ after) = .error before.length := by
  rw [search, narrow_append (fun e he => (hbefore e he).le) hafter]
  rcases before.eq_nil_or_concat with rfl | ⟨front, last, rfl⟩
  · cases after with
    | nil => rfl
    | cons e rest =>
        have hlt : name < e.1 := hafter e List.mem_cons_self
        simp [ne_of_gt hlt, not_lt_of_gt hlt]
  · have hlt : last.1 < name := hbefore last (by simp)
    simp [ne_of_lt hlt, hlt]

/-- Around a name, increasing entries fall into those before and those after it. -/
theorem Increasing.exists_around (h : Increasing entries) (name : String) :
    ∃ before after, (∀ e ∈ before, e.1 < name) ∧ (∀ e ∈ after, name < e.1) ∧
      (entries = before ++ after ∨ ∃ value, entries = before ++ (name, value) :: after) := by
  induction entries with
  | nil => exact ⟨[], [], by simp, by simp, Or.inl rfl⟩
  | cons first rest ih =>
      obtain ⟨hfirst, hrest⟩ := List.pairwise_cons.mp h
      rcases lt_trichotomy first.1 name with hlt | heq | hgt
      · obtain ⟨before, after, hbefore, hafter, hsplit⟩ := ih hrest
        refine ⟨first :: before, after, List.forall_mem_cons.mpr ⟨hlt, hbefore⟩, hafter, ?_⟩
        exact hsplit.imp (fun h => by rw [h, List.cons_append])
          fun ⟨value, h⟩ => ⟨value, by rw [h, List.cons_append]⟩
      · exact ⟨[], rest, by simp, fun e he => heq ▸ hfirst e he, Or.inr ⟨first.2, by simp [← heq]⟩⟩
      · exact ⟨[], first :: rest, by simp,
          List.forall_mem_cons.mpr ⟨hgt, fun e he => hgt.trans (hfirst e he)⟩, Or.inl rfl⟩

theorem insert_append (hbefore : ∀ e ∈ before, e.1 < name) :
    insert name value (before ++ entries) = before ++ insert name value entries := by
  induction before with
  | nil => rfl
  | cons first rest ih =>
      obtain ⟨hfirst, hrest⟩ := List.forall_mem_cons.mp hbefore
      rw [List.cons_append, insert, if_neg (ne_of_gt hfirst), if_neg (not_lt_of_gt hfirst),
        ih hrest, List.cons_append]

theorem insert_of_lt (hafter : ∀ e ∈ after, name < e.1) :
    insert name value after = (name, value) :: after := by
  cases after with
  | nil => rfl
  | cons first rest =>
      have hlt : name < first.1 := hafter first List.mem_cons_self
      rw [insert, if_neg (ne_of_lt hlt), if_pos hlt]

theorem lookup_append_of_lt (hbefore : ∀ e ∈ before, e.1 < name) :
    (before ++ entries).lookup name = entries.lookup name := by
  rw [List.lookup_append, List.lookup_eq_none_iff.mpr fun e he => by
    simpa using ne_of_gt (hbefore e he), Option.none_or]

theorem lookup_of_lt (hafter : ∀ e ∈ after, name < e.1) : after.lookup name = none :=
  List.lookup_eq_none_iff.mpr fun e he => by simpa using ne_of_lt (hafter e he)

theorem insertIdx_length_append (before after : List α) (x : α) :
    (before ++ after).insertIdx before.length x = before ++ x :: after := by
  induction before with
  | nil => rfl
  | cons first rest ih => exact congrArg (first :: ·) ih

/-- An entry is set over the one that is found, or put in where the name belongs. -/
theorem insert_eq_insertAt (h : Increasing entries) (name : String) (value : α) :
    insert name value entries = insertAt name value entries := by
  obtain ⟨before, after, hbefore, hafter, rfl | ⟨old, rfl⟩⟩ := h.exists_around name
  · simp only [insertAt, search_of_not_mem hbefore hafter, insert_append hbefore,
      insert_of_lt hafter, insertIdx_length_append]
  · simp only [insertAt, search_of_mem hbefore hafter, insert_append hbefore, insert, if_true]
    rw [List.set_append_right _ _ (Nat.le_refl _), Nat.sub_self, List.set_cons_zero]

/-- The value of a name is the one at the place that is found. -/
theorem lookup_eq_lookupAt (h : Increasing entries) (name : String) :
    entries.lookup name = lookupAt name entries := by
  obtain ⟨before, after, hbefore, hafter, rfl | ⟨old, rfl⟩⟩ := h.exists_around name
  · simp only [lookupAt, search_of_not_mem hbefore hafter, lookup_append_of_lt hbefore,
      lookup_of_lt hafter]
  · simp only [lookupAt, search_of_mem hbefore hafter, lookup_append_of_lt hbefore,
      List.lookup_cons_self, List.getElem?_append_right (Nat.le_refl _), Nat.sub_self,
      List.getElem?_cons_zero, Option.map_some]

/-- An entry is taken out at the place that is found. -/
theorem filter_eq_removeAt (h : Increasing entries) (name : String) :
    (entries.filter fun e => e.1 != name) = removeAt name entries := by
  have hkept : ∀ {part : List (String × α)}, (∀ e ∈ part, e.1 ≠ name) →
      (part.filter fun e => e.1 != name) = part := fun h =>
    List.filter_eq_self.mpr fun e he => bne_iff_ne.mpr (h e he)
  obtain ⟨before, after, hbefore, hafter, rfl | ⟨old, rfl⟩⟩ := h.exists_around name
  · simp only [removeAt, search_of_not_mem hbefore hafter]
    exact hkept fun e he => (List.mem_append.mp he).elim (fun h => ne_of_lt (hbefore e h))
      fun h => ne_of_gt (hafter e h)
  · simp only [removeAt, search_of_mem hbefore hafter, List.filter_append, List.filter_cons,
      bne_self_eq_false, Bool.false_eq_true, if_false,
      hkept fun e he => ne_of_lt (hbefore e he), hkept fun e he => ne_of_gt (hafter e he),
      List.eraseIdx_append_of_length_le (Nat.le_refl _), Nat.sub_self, List.eraseIdx_cons_zero]

end Entries

end MapStyling
