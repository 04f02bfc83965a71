/-!
# Lists of Entries

Named values as lists of pairs, with no name twice.

Two orders are in use. `put` leaves names in the order in which they were first
set. `insert` keeps texts as names in increasing order, so that a list is
determined by what it holds. Texts are compared by code point, which is the
order of their UTF-8 bytes.

## Main definitions

* `Entries.put`: Setting an entry in its old place, or at the end.
* `Entries.insert`: Setting an entry where the order wants it.
* `Entries.sort`: Entries of any order in this one.

## Theorems

* `lookup_put_self`, `lookup_put_of_ne`, `lookup_insert_self`,
  `lookup_insert_of_ne`: Both set one name and leave the others.
* `put_put`: Of two values the second stays.
* `lookup_map`, `lookup_filter`: Looking up after a change of all values, or among
  some of the names.
-/

namespace MapStyling

namespace Entries

variable {κ α : Type}

/-- Entries with one of them set, in its old place if it has one. -/
def put [DecidableEq κ] (name : κ) (value : α) : List (κ × α) → List (κ × α)
  | [] => [(name, value)]
  | (n, v) :: rest => if n = name then (n, value) :: rest else (n, v) :: put name value rest

/-- Increasing entries with one of them set. -/
def insert (name : String) (value : α) : List (String × α) → List (String × α)
  | [] => [(name, value)]
  | (n, v) :: rest =>
    if name = n then (name, value) :: rest
    else if name < n then (name, value) :: (n, v) :: rest
    else (n, v) :: insert name value rest

/-- Entries in increasing order. Of several under one name the first stays. -/
def sort (entries : List (String × α)) : List (String × α) :=
  entries.foldr (fun e sorted => insert e.1 e.2 sorted) []

theorem lookup_put_self [DecidableEq κ] [BEq κ] [LawfulBEq κ] (name : κ) (value : α)
    (entries : List (κ × α)) :
    (put name value entries).lookup name = some value := by
  induction entries with
  | nil => simp only [put, List.lookup_cons_self]
  | cons e rest ih =>
    obtain ⟨n, v⟩ := e
    simp only [put]
    split
    · next he => rw [he, List.lookup_cons_self]
    · next he =>
      rw [List.lookup_cons, beq_eq_false_iff_ne.mpr (Ne.symm he)]
      exact ih

theorem lookup_put_of_ne [DecidableEq κ] [BEq κ] [LawfulBEq κ] {name other : κ} (value : α)
    (hne : other ≠ name) (entries : List (κ × α)) : (put name value entries).lookup other
      = entries.lookup other := by
  induction entries with
  | nil => simp only [put, List.lookup_cons, beq_eq_false_iff_ne.mpr hne]
  | cons e rest ih =>
    obtain ⟨n, v⟩ := e
    simp only [put]
    split
    · next he => simp only [he, List.lookup_cons, beq_eq_false_iff_ne.mpr hne]
    · simp only [List.lookup_cons, ih]

theorem lookup_insert_self (name : String) (value : α) (entries : List (String × α)) :
    (insert name value entries).lookup name = some value := by
  induction entries with
  | nil => simp only [insert, List.lookup_cons_self]
  | cons e rest ih =>
    obtain ⟨n, v⟩ := e
    simp only [insert]
    split
    · rw [List.lookup_cons_self]
    · next he =>
      split
      · rw [List.lookup_cons_self]
      · rw [List.lookup_cons, beq_eq_false_iff_ne.mpr he]
        exact ih

theorem lookup_insert_of_ne {name other : String} (value : α) (hne : other ≠ name)
    (entries : List (String × α)) :
    (insert name value entries).lookup other = entries.lookup other := by
  induction entries with
  | nil => simp only [insert, List.lookup_cons, beq_eq_false_iff_ne.mpr hne]
  | cons e rest ih =>
    obtain ⟨n, v⟩ := e
    simp only [insert]
    split
    · next he => simp only [← he, List.lookup_cons, beq_eq_false_iff_ne.mpr hne]
    · split
      · rw [List.lookup_cons, beq_eq_false_iff_ne.mpr hne]
      · simp only [List.lookup_cons, ih]

theorem lookup_map [BEq κ] {β : Type} (f : α → β) (name : κ) (entries : List (κ × α)) :
    (entries.map fun e => (e.1, f e.2)).lookup name = (entries.lookup name).map f := by
  induction entries with
  | nil => rfl
  | cons e rest ih =>
    obtain ⟨n, v⟩ := e
    simp only [List.map_cons, List.lookup_cons, ih]
    split <;> rfl

theorem lookup_filter [BEq κ] [LawfulBEq κ] (p : κ → Bool) (name : κ) (entries : List (κ × α)) :
    (entries.filter fun e => p e.1).lookup name
      = if p name then entries.lookup name else none := by
  induction entries with
  | nil => simp only [List.filter_nil, List.lookup_nil, ite_self]
  | cons e rest ih =>
    obtain ⟨n, v⟩ := e
    by_cases hn : name = n
    · subst hn
      by_cases hp : p name
      · simp only [List.filter_cons, hp, if_true, List.lookup_cons_self]
      · simp only [List.filter_cons, hp, if_false, Bool.false_eq_true]
        rw [ih, if_neg hp]
    · rw [List.lookup_cons, beq_eq_false_iff_ne.mpr hn, List.filter_cons]
      split
      · rw [List.lookup_cons, beq_eq_false_iff_ne.mpr hn]
        exact ih
      · exact ih

theorem mem_of_lookup [BEq κ] [LawfulBEq κ] {name : κ} {value : α} {entries : List (κ × α)}
    (h : entries.lookup name = some value) : (name, value) ∈ entries := by
  rcases List.lookup_eq_some_iff.mp h with ⟨before, after, heq, _⟩
  rw [heq]
  exact List.mem_append_right _ List.mem_cons_self

theorem lookup_isSome_of_mem [BEq κ] [LawfulBEq κ] {name : κ} {entries : List (κ × α)}
    (h : name ∈ entries.map Prod.fst) : (entries.lookup name).isSome = true := by
  rcases hl : entries.lookup name with _ | value
  · rcases List.mem_map.mp h with ⟨e, he, hen⟩
    have hne := List.lookup_eq_none_iff.mp hl e he
    rw [hen, bne_self_eq_false] at hne
    exact absurd hne Bool.false_ne_true
  · rfl

theorem mem_put [DecidableEq κ] {name : κ} {value : α} {e : κ × α} {entries : List (κ × α)}
    (h : e ∈ put name value entries) : e = (name, value) ∨ e ∈ entries := by
  induction entries with
  | nil => exact Or.inl (List.mem_singleton.mp h)
  | cons first rest ih =>
    obtain ⟨n, v⟩ := first
    simp only [put] at h
    split at h
    · next hn =>
      rcases List.mem_cons.mp h with he | he
      · exact Or.inl (by rw [he, hn])
      · exact Or.inr (List.mem_cons_of_mem _ he)
    · rcases List.mem_cons.mp h with he | he
      · exact Or.inr (he ▸ List.mem_cons_self)
      · exact (ih he).imp_right (List.mem_cons_of_mem _)

theorem put_map [DecidableEq κ] {β : Type} (f : α → β) (name : κ) (value : α)
    (entries : List (κ × α)) :
    put name (f value) (entries.map fun e => (e.1, f e.2))
      = (put name value entries).map fun e => (e.1, f e.2) := by
  induction entries with
  | nil => rfl
  | cons e rest ih =>
    simp only [put, List.map_cons, ih]
    split <;> rfl

/-- Of an entry that is set twice, the second value stays. -/
theorem put_put [DecidableEq κ] (name : κ) (value other : α) (entries : List (κ × α)) :
    put name value (put name other entries) = put name value entries := by
  induction entries with
  | nil => simp only [put, if_true]
  | cons e rest ih =>
    simp only [put]
    split
    · next he => simp only [put, if_pos he]
    · next he => simp only [put, if_neg he, ih]

/-- An entry that is there is set in its place. -/
theorem map_fst_put [DecidableEq κ] {name : κ} {value : α} {entries : List (κ × α)}
    (h : name ∈ entries.map Prod.fst) :
    (put name value entries).map Prod.fst = entries.map Prod.fst := by
  induction entries with
  | nil => exact absurd h List.not_mem_nil
  | cons e rest ih =>
    rw [List.map_cons, List.mem_cons] at h
    simp only [put]
    split
    · rfl
    · next hne =>
      rw [List.map_cons, List.map_cons, ih (h.resolve_left fun heq => hne heq.symm)]

/-- An entry is set where its name comes first. -/
theorem put_append [DecidableEq κ] {name : κ} {value : α} {entries others : List (κ × α)}
    (h : name ∈ entries.map Prod.fst) :
    put name value (entries ++ others) = put name value entries ++ others := by
  induction entries with
  | nil => exact absurd h List.not_mem_nil
  | cons e rest ih =>
    rw [List.map_cons, List.mem_cons] at h
    simp only [List.cons_append, put]
    split
    · rfl
    · next hne =>
      rw [ih (h.resolve_left fun heq => hne heq.symm), List.cons_append]

end Entries

end MapStyling
