import MapStyling.Proofs.ByteOrder
import MapStyling.Proofs.Floats
import MapStyling.Proofs.Searches

/-!
# Bags and the Maps They Hold

A bag is a finite map from names, whatever was done to it.

Setting a name, taking it out, clearing the bag and collecting one from a list are changes of
a map too, and what becomes of the map is easier to say: a function is updated at one name, or
it is a list read from its end. A bag holds a map if its names increase and each reads as the
map has it. That is kept by every change, so it holds after all histories, and everything that
can be asked of the bag is an answer about the map: what is stored, what is counted, what is
listed and what is given back by a name that is taken out.

Names that increase leave a map no choice of its entries. So two bags are one if they hold one
map, and they compare as equal if the maps do at every name. Numbers compare as numbers here:
the two zeros are one, and a bag with something that is not a number is unlike itself.

## Main definitions

* `Change`: What is done to a bag, with `perform`, and to the map it holds, with `record`.
* `Properties.Holds`: The bag has the answers of a map.

## Theorems

* `Entries.Increasing.forall₂_of_lookup`: Increasing entries agree if all names do.
* `Change.get?_perform`: A change of a bag is the change of its map.
* `Change.history_holds`: A history leaves the bag of its map.
-/

namespace MapStyling

/-- What is done to a bag. -/
inductive Change
  | set (name : String) (value : PropertyValue)
  | remove (name : String)
  | clear
  | collect (entries : List (String × PropertyValue))

namespace Change

/-- The bag after a change. -/
def perform (p : Properties) : Change → Properties
  | set name value => p.set name value
  | remove name => p.remove name
  | clear => .empty
  | collect entries => .ofList entries

/-- What is given back: the value of a name that is taken out. -/
def answer (p : Properties) : Change → Option PropertyValue
  | remove name => p.get? name
  | _ => none

/-- The same on the entries, where each name is searched by halves. -/
def performAt (entries : List (String × PropertyValue)) :
    Change → List (String × PropertyValue) × Option PropertyValue
  | set name value => (Entries.insertAt name value entries, none)
  | remove name => (Entries.removeAt name entries, Entries.lookupAt name entries)
  | clear => ([], none)
  | collect list => (list.foldl (fun entries e => Entries.insertAt e.1 e.2 entries) [], none)

/-- A map after a change. In a list, the last value of a name counts. -/
def record (m : String → Option PropertyValue) : Change → String → Option PropertyValue
  | set name value => Function.update m name (some value)
  | remove name => Function.update m name none
  | clear => fun _ => none
  | collect entries => fun name => entries.reverse.lookup name

/-- What a map says of a name that is taken out. -/
def recorded (m : String → Option PropertyValue) : Change → Option PropertyValue
  | remove name => m name
  | _ => none

end Change

namespace Properties

/-- The bag has the answers of a map. Its entries are in the order of the bytes of their
    names, which takes no name twice. -/
structure Holds (p : Properties) (m : String → Option PropertyValue) : Prop where
  increasing : p.entries.Pairwise fun a b => Text.bytes a.1 < Text.bytes b.1
  mem_iff : ∀ name value, (name, value) ∈ p.entries ↔ m name = some value
  get_eq : ∀ name, p.get name = (m name).getD .nothing
  text_eq : ∀ name, (p.get name).text? = (m name).bind PropertyValue.text?
  number_eq : ∀ name, (p.get name).number? = (m name).bind PropertyValue.number?
  contains_eq : ∀ name, p.contains name = (m name).isSome
  size_eq : (p.size : ℕ∞) = {name | (m name).isSome}.encard
  isEmpty_iff : p.isEmpty = true ↔ ∀ name, m name = none

end Properties

namespace Entries

variable {α : Type} {name : String} {value : α} {entries others : List (String × α)}

theorem Increasing.mem_iff_lookup (h : Increasing entries) :
    (name, value) ∈ entries ↔ entries.lookup name = some value := by
  refine ⟨fun hmem => ?_, mem_of_lookup⟩
  obtain ⟨before, after, hbefore, hafter, rfl | ⟨old, rfl⟩⟩ := h.exists_around name
  · refine absurd (List.mem_append.mp hmem) (not_or_intro (fun hm => ?_) fun hm => ?_)
    · exact lt_irrefl _ (hbefore _ hm)
    · exact lt_irrefl _ (hafter _ hm)
  · rw [lookup_append_of_lt hbefore, List.lookup_cons_self]
    rcases List.mem_append.mp hmem with hm | hm
    · exact absurd (hbefore _ hm) (lt_irrefl _)
    · rcases List.mem_cons.mp hm with heq | hm
      · exact congrArg some (congrArg Prod.snd heq).symm
      · exact absurd (hafter _ hm) (lt_irrefl _)

/-- As many names have a value as there are entries. -/
theorem Increasing.encard_lookup (h : Increasing entries) :
    {name | (entries.lookup name).isSome = true}.encard = entries.length := by
  have hnames : {name | (entries.lookup name).isSome = true}
      = ((entries.map Prod.fst).toFinset : Set String) := by
    ext name
    rw [Set.mem_ofPred_eq, Finset.mem_coe, List.mem_toFinset]
    refine ⟨fun hl => ?_, lookup_isSome_of_mem⟩
    obtain ⟨value, hvalue⟩ := Option.isSome_iff_exists.mp hl
    exact List.mem_map_of_mem (mem_of_lookup hvalue)
  -- No name is there twice, so there are as many names as entries.
  rw [hnames, Set.encard_coe_eq_coe_finsetCard, List.toFinset_card_of_nodup h.nodup,
    List.length_map]

/-- No name with a value comes before the first one. -/
theorem Increasing.head_le {a : String × α} (h : Increasing (a :: entries))
    (hname : (a :: entries).lookup name ≠ none) : a.1 ≤ name := by
  refine not_lt.mp fun hlt => hname (lookup_of_lt (List.forall_mem_cons.mpr ⟨hlt, fun e he => ?_⟩))
  exact hlt.trans ((List.pairwise_cons.mp h).1 e he)

/-- Increasing entries agree, one with the other, if what they say of every name does. -/
theorem Increasing.forall₂_of_lookup {r : α → α → Prop} (h : Increasing entries)
    (h' : Increasing others)
    (hr : ∀ name, Option.Rel r (entries.lookup name) (others.lookup name)) :
    List.Forall₂ (fun a b => a.1 = b.1 ∧ r a.2 b.2) entries others := by
  induction entries generalizing others with
  | nil =>
      cases others with
      | nil => exact List.Forall₂.nil
      | cons b rest' =>
          have hb := hr b.1
          rw [List.lookup_nil, List.lookup_cons_self] at hb
          cases hb
  | cons a rest ih =>
      cases others with
      | nil =>
          have ha := hr a.1
          rw [List.lookup_nil, List.lookup_cons_self] at ha
          cases ha
      | cons b rest' =>
          obtain ⟨ha, hrest⟩ := List.pairwise_cons.mp h
          obtain ⟨hb, hrest'⟩ := List.pairwise_cons.mp h'
          -- The name in front is the least of each list, so neither is missing in the other.
          have hname : a.1 = b.1 := by
            refine le_antisymm (h.head_le fun hnone => ?_) (h'.head_le fun hnone => ?_)
            · have hfirst := hr b.1
              rw [hnone, List.lookup_cons_self] at hfirst
              cases hfirst
            · have hfirst := hr a.1
              rw [hnone, List.lookup_cons_self] at hfirst
              cases hfirst
          have hvalue : r a.2 b.2 := by
            have hfirst := hr a.1
            rw [List.lookup_cons_self, hname, List.lookup_cons_self] at hfirst
            cases hfirst with
            | some hab => exact hab
          refine List.Forall₂.cons ⟨hname, hvalue⟩ (ih hrest hrest' fun name => ?_)
          by_cases hn : name = a.1
          · rw [hn, lookup_of_lt ha, hname, lookup_of_lt hb]
            exact Option.Rel.none
          · have hlater := hr name
            rwa [List.lookup_cons, beq_eq_false_iff_ne.mpr hn, List.lookup_cons,
              beq_eq_false_iff_ne.mpr (hname ▸ hn)] at hlater

theorem lookup_of_forall₂ {r : α → α → Prop}
    (h : List.Forall₂ (fun a b => a.1 = b.1 ∧ r a.2 b.2) entries others) (name : String) :
    Option.Rel r (entries.lookup name) (others.lookup name) := by
  induction h with
  | nil => exact Option.Rel.none
  | @cons a b rest rest' hab _ ih =>
      by_cases hn : name = a.1
      · rw [hn, List.lookup_cons_self, hab.1, List.lookup_cons_self]
        exact Option.Rel.some hab.2
      · rwa [List.lookup_cons, beq_eq_false_iff_ne.mpr hn, List.lookup_cons,
          beq_eq_false_iff_ne.mpr (hab.1 ▸ hn)]

theorem Increasing.eq_iff_lookup (h : Increasing entries) (h' : Increasing others) :
    entries = others ↔ ∀ name, entries.lookup name = others.lookup name := by
  refine ⟨fun heq name => by rw [heq], fun hl => ?_⟩
  have heq : List.Forall₂ (fun a b : String × α => a.1 = b.1 ∧ a.2 = b.2) entries others :=
    h.forall₂_of_lookup h' fun name => by
      rw [hl name]
      cases others.lookup name with
      | none => exact Option.Rel.none
      | some value => exact Option.Rel.some rfl
  exact List.forall₂_eq_eq_eq ▸ heq.imp fun a b hab => Prod.ext hab.1 hab.2

end Entries

namespace PropertyValue

/-- Only what is not a number is unlike itself. -/
theorem same_self (value : PropertyValue) :
    value.same value = true ↔ ∀ v, value = .number v → v.isNaN = false := by
  cases value with
  | nothing => exact iff_of_true rfl fun _ h => PropertyValue.noConfusion h
  | text s => exact iff_of_true (beq_self_eq_true s) fun _ h => PropertyValue.noConfusion h
  | number v =>
      rw [same, Double.beq_self, ne_eq, ← Double.isNaN_iff, Bool.not_eq_true]
      exact ⟨fun h _ hv => number.inj hv ▸ h, fun h => h v rfl⟩

end PropertyValue

namespace Properties

variable {p q : Properties}

theorem same_iff_forall₂ : p.same q = true ↔
    List.Forall₂ (fun a b => a.1 = b.1 ∧ a.2.same b.2 = true) p.entries q.entries := by
  obtain ⟨entries⟩ := p
  obtain ⟨others⟩ := q
  simp only [same, size, Bool.and_eq_true, List.forall₂_iff_zip, List.all_eq_true, beq_iff_eq]
  exact and_congr decide_eq_true_iff
    ⟨fun h a b hab => h (a, b) hab, fun h e he => h (a := e.1) (b := e.2) he⟩

/-- Bags compare as equal if the values of every name do. -/
theorem same_iff_get? (hp : Entries.Increasing p.entries) (hq : Entries.Increasing q.entries) :
    p.same q = true ↔
      ∀ name, Option.Rel (fun v w => v.same w = true) (p.get? name) (q.get? name) :=
  same_iff_forall₂.trans ⟨fun h => Entries.lookup_of_forall₂ h, hp.forall₂_of_lookup hq⟩

/-- A bag that reads like a map has all of its answers. -/
theorem holds_of_get? {m : String → Option PropertyValue} (hp : Entries.Increasing p.entries)
    (hm : p.get? = m) : p.Holds m := by
  subst hm
  -- The typed readings look at what is read without a type.
  have htyped : ∀ {α : Type} (f : PropertyValue → Option α), f .nothing = none →
      ∀ name, f (p.get name) = (p.get? name).bind f := by
    intro α f hf name
    rw [get]
    cases p.get? name with
    | none => exact hf
    | some value => rfl
  exact {
    increasing := hp.imp Text.bytes_lt_iff.mpr
    mem_iff := fun name value => hp.mem_iff_lookup
    get_eq := fun name => rfl
    text_eq := htyped PropertyValue.text? rfl
    number_eq := htyped PropertyValue.number? rfl
    contains_eq := fun name => rfl
    size_eq := hp.encard_lookup.symm
    isEmpty_iff := by
      obtain ⟨entries⟩ := p
      cases entries with
      | nil => exact iff_of_true rfl fun _ => rfl
      | cons e rest =>
          refine iff_of_false Bool.false_ne_true fun h => ?_
          have he := h e.1
          rw [get?, List.lookup_cons_self] at he
          exact Option.some_ne_none _ he }

/-- Entries that are set one after the other: the last value of a name counts, and where the
    list has none the bag from before. -/
theorem get?_foldl_set (entries : List (String × PropertyValue)) (p : Properties)
    (name : String) : (entries.foldl (fun p e => p.set e.1 e.2) p).get? name
      = (entries.reverse.lookup name).or (p.get? name) := by
  induction entries generalizing p with
  | nil => rfl
  | cons e rest ih =>
      rw [List.foldl_cons, ih, List.reverse_cons, List.lookup_append, Option.or_assoc]
      refine congrArg _ ?_
      by_cases hn : name = e.1
      · rw [hn, get?_set_self, List.lookup_cons_self]
        rfl
      · rw [get?_set_of_ne _ _ hn, List.lookup_cons, beq_eq_false_iff_ne.mpr hn]
        rfl

theorem increasing_foldl_set (entries : List (String × PropertyValue))
    (hp : Entries.Increasing p.entries) :
    Entries.Increasing (entries.foldl (fun p e => p.set e.1 e.2) p).entries := by
  induction entries generalizing p with
  | nil => exact hp
  | cons e rest ih => exact ih (Entries.increasing_insert e.1 e.2 hp)

/-- Setting by halves, one after the other. -/
theorem foldl_insertAt (entries : List (String × PropertyValue))
    (hp : Entries.Increasing p.entries) :
    entries.foldl (fun entries e => Entries.insertAt e.1 e.2 entries) p.entries
      = (entries.foldl (fun p e => p.set e.1 e.2) p).entries := by
  induction entries generalizing p with
  | nil => rfl
  | cons e rest ih =>
      rw [List.foldl_cons, List.foldl_cons, ← Entries.insert_eq_insertAt hp]
      exact ih (p := p.set e.1 e.2) (Entries.increasing_insert e.1 e.2 hp)

end Properties

namespace Change

variable {p : Properties} {changes : List Change}

/-- A change keeps the order of the names. -/
theorem perform_increasing (change : Change) (hp : Entries.Increasing p.entries) :
    Entries.Increasing (change.perform p).entries := by
  cases change with
  | set name value => exact Entries.increasing_insert name value hp
  | remove name => exact hp.sublist List.filter_sublist
  | clear => exact List.Pairwise.nil
  | collect entries => exact Properties.increasing_foldl_set entries List.Pairwise.nil

/-- A change of a bag is the change of its map. -/
theorem get?_perform (change : Change) (p : Properties) :
    (change.perform p).get? = change.record p.get? := by
  funext name
  cases change with
  | set other value =>
      by_cases hn : name = other
      · rw [hn, perform, Properties.get?_set_self, record, Function.update_self]
      · rw [perform, Properties.get?_set_of_ne _ _ hn, record, Function.update_of_ne hn]
  | remove other =>
      by_cases hn : name = other
      · rw [hn, perform, Properties.get?_remove_self, record, Function.update_self]
      · rw [perform, Properties.get?_remove_of_ne _ hn, record, Function.update_of_ne hn]
  | clear => rfl
  | collect entries =>
      rw [perform, Properties.ofList, Properties.get?_foldl_set]
      exact Option.or_none

/-- Where names are searched by halves, a change does the same. -/
theorem performAt_eq (change : Change) (hp : Entries.Increasing p.entries) :
    change.performAt p.entries = ((change.perform p).entries, change.answer p) := by
  cases change with
  | set name value => exact congrArg (·, none) (Entries.insert_eq_insertAt hp name value).symm
  | remove name =>
      exact congrArg₂ Prod.mk (Entries.filter_eq_removeAt hp name).symm
        (Entries.lookup_eq_lookupAt hp name).symm
  | clear => rfl
  | collect entries =>
      exact congrArg (·, none) (Properties.foldl_insertAt (p := .empty) entries List.Pairwise.nil)

/-- A history from a bag on leaves increasing names, and reads like the same history of the
    map. -/
theorem foldl_perform (changes : List Change) (hp : Entries.Increasing p.entries) :
    Entries.Increasing (changes.foldl perform p).entries ∧
      (changes.foldl perform p).get? = changes.foldl record p.get? := by
  induction changes generalizing p with
  | nil => exact ⟨hp, rfl⟩
  | cons change rest ih =>
      obtain ⟨hinc, hget⟩ := ih (change.perform_increasing hp)
      rw [get?_perform] at hget
      exact ⟨hinc, hget⟩

/-- The bag after a history. -/
def built (changes : List Change) : Properties := changes.foldl perform .empty

/-- The map after a history. -/
def mapped (changes : List Change) : String → Option PropertyValue :=
  changes.foldl record fun _ => none

theorem built_increasing (changes : List Change) :
    Entries.Increasing (built changes).entries :=
  (foldl_perform changes List.Pairwise.nil).1

theorem get?_built (changes : List Change) : (built changes).get? = mapped changes :=
  (foldl_perform changes (p := .empty) List.Pairwise.nil).2

/-- A history leaves the bag of its map, all names are found by halves, and the next change
    answers what the map says. Another history leaves the same bag if it leaves the same map,
    and one that compares as equal if the values of every name do; so every bag without
    something that is not a number is like itself. -/
theorem history_holds (changes : List Change) :
    (built changes).Holds (mapped changes) ∧
    (∀ name, Entries.lookupAt name (built changes).entries = mapped changes name) ∧
    (∀ next : Change, next.performAt (built changes).entries
      = ((built (changes ++ [next])).entries, next.recorded (mapped changes))) ∧
    (∀ others, built changes = built others ↔ mapped changes = mapped others) ∧
    (∀ others, (built changes).same (built others) = true ↔
      ∀ name, Option.Rel (fun v w => v.same w = true) (mapped changes name)
        (mapped others name)) ∧
    ((built changes).same (built changes) = true ↔
      ∀ name v, mapped changes name = some (.number v) → v.isNaN = false) := by
  have hinc := built_increasing changes
  have hsame : ∀ others, (built changes).same (built others) = true ↔
      ∀ name, Option.Rel (fun v w => v.same w = true) (mapped changes name)
        (mapped others name) := fun others => by
    rw [Properties.same_iff_get? hinc (built_increasing others), get?_built, get?_built]
  refine ⟨Properties.holds_of_get? hinc (get?_built changes), fun name => ?_, fun next => ?_,
    fun others => ?_, hsame, ?_⟩
  · rw [← Entries.lookup_eq_lookupAt hinc, ← get?_built, Properties.get?]
  · rw [performAt_eq next hinc, built, built, List.foldl_append]
    refine congrArg _ ?_
    cases next with
    | remove name => exact congrFun (get?_built changes) name
    | _ => rfl
  · -- Entries in the order of their names are known by what they say of each.
    refine ⟨fun h => by rw [← get?_built, h, get?_built], fun h => ?_⟩
    refine congrArg Properties.mk ((hinc.eq_iff_lookup (built_increasing others)).mpr
      fun name => ?_)
    exact congrFun ((get?_built changes).trans (h.trans (get?_built others).symm)) name
  · refine (hsame changes).trans (forall_congr' fun name => ?_)
    cases mapped changes name with
    | none => exact iff_of_true Option.Rel.none fun _ h => absurd h.symm (Option.some_ne_none _)
    | some value =>
        simp only [Option.rel_some_some, Option.some.injEq, ← PropertyValue.same_self]

end Change

end MapStyling
