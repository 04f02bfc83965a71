import MapStyling.Entries
import MapStyling.Proofs.WebLanguage.Making

/-!
# Setting Variables

What hangs on the order in which variables are set and values are made, and what does not.

An engine sets a few variables over and over, to constants and to objects that it makes for
them. Between two settings it makes more objects, and functions that are not called yet. All
of this can be put in another order, as far as anybody can tell: the second setting of a
variable counts, variables of two names do not get in each other's way, and what is made of
nothing neither sees a variable nor changes one. So however often variables were set, one
setting of each is left, in the order of their names.

## Main definitions

* `WebLanguage.Exchanged`, `WebLanguage.Apart`: Laws of a language.
* `WebLanguage.SettingLaws`: What is asked of a language for some variables.
* `WebLanguage.assign`: The context after a variable was set to what is made for it.
* `WebLanguage.settled`: The context after variables were set to constants.

## Theorems

* `SettingLaws.assign_assign`, `SettingLaws.assign_comm`, `SettingLaws.made_assign`: Two
  steps in another order.
* `SettingLaws.settled_insert`, `SettingLaws.assign_settled`, `SettingLaws.made_settled`:
  One step more after variables were set.
-/

namespace MapStyling

namespace WebLanguage

variable {L : WebLanguage} {S : String → Prop} {n m : String} {names : List String}
  {a b : StateM L.Context L.Value} {c c' : L.Context} {vs vs' : List L.Value} {v v' w : L.Value}

/-- The context after a variable was set. -/
def withVariable (L : WebLanguage) (name : String) (v : L.Value) (c : L.Context) : L.Context :=
  ((L.setVariable name v).run c).2

/-- The context after a variable was set to what is made for it. -/
def assign (name : String) (a : StateM L.Context L.Value) (c : L.Context) : L.Context :=
  L.withVariable name (a.run c).1 (a.run c).2

/-- Variables of two names can be set in either order. -/
def Exchanged (L : WebLanguage) (allowed : Operation → Prop) (S : String → Prop) (n m : String) :
    Prop :=
  ∀ h, L.Common allowed h → ∀ v ∈ h.values, ∀ w ∈ h.values,
    Alike S ⟨L.withVariable n v (L.withVariable m w h.context), h.values⟩
      ⟨L.withVariable m w (L.withVariable n v h.context), h.values⟩

/-- What is made of nothing is the same before and after a variable is set. -/
def Apart (L : WebLanguage) (allowed : Operation → Prop) (S : String → Prop) (name : String) :
    Prop :=
  ∀ h, L.Common allowed h → ∀ v ∈ h.values, ∀ operations : List Operation,
    (∀ o ∈ operations, o.Makes S) →
    let c := L.withVariable name v h.context
    let made := Holding.after operations ⟨h.context, []⟩
    let made' := Holding.after operations ⟨c, []⟩
    replies operations ⟨c, []⟩ = replies operations ⟨h.context, []⟩ ∧
      Alike S ⟨L.withVariable name v made.context, h.values ++ made.values⟩
        ⟨made'.context, h.values ++ made'.values⟩

/-- A language in which some variables hold what was put into them last, and in which nothing
    is seen of anything else that was done to them. -/
structure SettingLaws (L : WebLanguage) (S : String → Prop) (names : List String) : Prop where
  unseen : L.Unseen (Operation.Allowed S) S S
  overwritten : ∀ n ∈ names, L.Overwritten (Operation.Allowed S) S n
  exchanged : ∀ n ∈ names, ∀ m ∈ names, n ≠ m → L.Exchanged (Operation.Allowed S) S n m
  apart : ∀ n ∈ names, L.Apart (Operation.Allowed S) S n

/-- Alike contexts in which values that are held at one position are set. -/
theorem Alike.withVariable (h : Alike S ⟨c, vs⟩ ⟨c', vs'⟩) (hv : Beside vs vs' v v') :
    Alike S ⟨L.withVariable n v c, vs⟩ ⟨L.withVariable n v' c', vs'⟩ := by
  rcases hv.position c c' with ⟨i, hi, hi'⟩
  have hset := (Alike.bisimulation.step _ _ h (.setVariable n i) trivial).2
  change Alike S ⟨L.withVariable n (Holding.value ⟨c, vs⟩ i) c, vs ++ [L.undefined]⟩
    ⟨L.withVariable n (Holding.value ⟨c', vs'⟩ i) c', vs' ++ [L.undefined]⟩ at hset
  rw [hi, hi'] at hset
  exact hset.select (Beside.forall₂_left h.length _ _)

theorem Arises.withVariable (hh : L.Arises S ⟨c, vs⟩) (hv : v ∈ vs) :
    L.Arises S ⟨L.withVariable n v c, vs⟩ := by
  rcases List.mem_iff_getElem?.mp hv with ⟨i, hi⟩
  have hset := hh.perform (o := .setVariable n i) trivial
  change L.Arises S ⟨L.withVariable n (Holding.value ⟨c, vs⟩ i) c, vs ++ [L.undefined]⟩ at hset
  rw [Holding.value_eq hi] at hset
  exact hset.select fun v hv => List.mem_append_left _ hv

theorem mem_concat (vs : List L.Value) (v : L.Value) : v ∈ vs ++ [v] :=
  List.mem_append_right _ (List.mem_singleton.mpr rfl)

theorem Arises.constant (hh : L.Arises S ⟨c, vs⟩) (k : Constant) :
    L.Arises S ⟨c, vs ++ [k.value]⟩ :=
  hh.perform (o := .constant k) trivial

theorem Arises.assign (hh : L.Arises S ⟨c, vs⟩) (ha : Made S a) :
    L.Arises S ⟨L.assign n a c, vs⟩ :=
  ((hh.made ha).withVariable (mem_concat _ _)).select fun _ hv => List.mem_append_left _ hv

theorem Alike.assign (h : Alike S ⟨c, vs⟩ ⟨c', vs'⟩) (ha : Made S a) :
    Alike S ⟨L.assign n a c, vs⟩ ⟨L.assign n a c', vs'⟩ :=
  ((h.made ha).withVariable (.last h.length _ _)).front h.length

namespace SettingLaws

/-- Nothing is seen of a setting while something is made. -/
theorem bisimulation_set (hL : L.SettingLaws S names) (hn : n ∈ names)
    (hh : L.Arises S ⟨c, vs⟩) (hv : v ∈ vs) :
    Bisimulation (Operation.Makes S) (Alongside S c (L.withVariable n v c)) := by
  rcases hh.common with ⟨k, hk, rfl, -, hmem⟩
  exact bisimulation_alongside fun operations hmakes =>
    (hL.apart n hn k hk v (hmem v hv) operations hmakes).1

variable (hL : L.SettingLaws S names)

include hL

/-- What is made is not seen by anybody who has no reference to it. -/
theorem alike_made (hh : L.Arises S ⟨c, vs⟩) (ha : Made S a) :
    Alike S ⟨c, vs⟩ ⟨(a.run c).2, vs⟩ := by
  rcases hh.common with ⟨k, hk, rfl, -, hmem⟩
  have hreached : Bisimulation (Operation.Makes S)
      (Diagonal (Reached (Operation.Makes S) (⟨k.context, []⟩ : Holding L))) :=
    .diagonal fun _ o ho hm => hm.perform o ho
  rcases ha _ hreached k.context k.context ⟨rfl, .refl⟩ with ⟨ws, _, ⟨-, hm⟩, -⟩
  exact (hL.unseen k hk _ hm).of_forall_mem hmem

theorem alike_overwritten (hn : n ∈ names) (hh : L.Arises S ⟨c, vs⟩) (hv : v ∈ vs) (hw : w ∈ vs) :
    Alike S ⟨L.withVariable n w c, vs⟩ ⟨L.withVariable n w (L.withVariable n v c), vs⟩ := by
  rcases hh.common with ⟨k, hk, rfl, -, hmem⟩
  exact (hL.overwritten n hn k hk v (hmem v hv) w (hmem w hw)).of_forall_mem hmem

theorem alike_exchanged (hn : n ∈ names) (hm : m ∈ names) (hne : n ≠ m)
    (hh : L.Arises S ⟨c, vs⟩) (hv : v ∈ vs) (hw : w ∈ vs) :
    Alike S ⟨L.withVariable n v (L.withVariable m w c), vs⟩
      ⟨L.withVariable m w (L.withVariable n v c), vs⟩ := by
  rcases hh.common with ⟨k, hk, rfl, -, hmem⟩
  exact (hL.exchanged n hn m hm hne k hk v (hmem v hv) w (hmem w hw)).of_forall_mem hmem

theorem alike_apart (hn : n ∈ names) (hh : L.Arises S ⟨c, vs⟩) (hv : v ∈ vs) (ha : Made S a) :
    let made := a.run (L.withVariable n v c)
    Alike S ⟨L.withVariable n v (a.run c).2, vs ++ [(a.run c).1]⟩ ⟨made.2, vs ++ [made.1]⟩ := by
  rcases ha _ (hL.bisimulation_set hn hh hv) c _ (.refl c _) with
    ⟨ws, ws', ⟨operations, hmakes, hm, hm'⟩, hbeside⟩
  rcases hh.common with ⟨k, hk, rfl, -, hmem⟩
  have halike := (hL.apart n hn k hk v (hmem v hv) operations hmakes).2
  rw [hm, hm'] at halike
  refine halike.select_concat rfl (List.forall₂_same.mpr fun u hu => ?_) hbeside
  rcases List.mem_iff_getElem?.mp (hmem u hu) with ⟨i, hi⟩
  exact ⟨i, hi, hi⟩

/-- The second setting of a variable counts. -/
theorem assign_assign (hn : n ∈ names) (hh : L.Arises S ⟨c, vs⟩) (ha : Made S a) (hb : Made S b) :
    Alike S ⟨L.assign n b (L.assign n a c), vs⟩ ⟨L.assign n b c, vs⟩ := by
  have hfirst := hh.made ha
  have hset := (hL.alike_apart hn hfirst (mem_concat _ _) hb).withVariable (n := n)
    (.last rfl _ _)
  -- What is made for the second setting is made before the first one.
  have hover := hL.alike_overwritten hn (hfirst.made hb)
    (List.mem_append_left _ (mem_concat _ _)) (mem_concat _ _)
  have hunseen := (hL.alike_made hh ha).assign (n := n) hb
  exact (hunseen.trans (((hover.trans hset).front rfl).front rfl)).symm

/-- A constant and what is made for another variable can be set in either order. -/
theorem assign_comm (hn : n ∈ names) (hm : m ∈ names) (hne : n ≠ m) (hh : L.Arises S ⟨c, vs⟩)
    (k : Constant) (ha : Made S a) :
    Alike S ⟨L.withVariable n k.value (L.assign m a c), vs⟩
      ⟨L.assign m a (L.withVariable n k.value c), vs⟩ := by
  have hk := hh.constant k
  have hset := (hL.alike_apart hn hk (mem_concat _ _) ha).withVariable (n := m) (.last rfl _ _)
  have hexchanged := hL.alike_exchanged hn hm hne (hk.made ha)
    (List.mem_append_left _ (mem_concat _ _)) (mem_concat _ _)
  exact ((hexchanged.trans hset).front rfl).front rfl

/-- A constant can be set before or after something is made. -/
theorem made_assign (hn : n ∈ names) (hh : L.Arises S ⟨c, vs⟩) (k : Constant) (ha : Made S a) :
    let made := a.run (L.withVariable n k.value c)
    Alike S ⟨made.2, vs ++ [made.1]⟩ ⟨L.withVariable n k.value (a.run c).2,
      vs ++ [(a.run c).1]⟩ := by
  have hapart := hL.alike_apart hn (hh.constant k) (mem_concat _ _) ha
  refine (hapart.select (List.rel_append ?_ (.cons (.last rfl _ _) .nil))).symm
  exact (Beside.forall₂_left rfl [k.value] [k.value]).imp fun _ _ hx => hx.append _ _

end SettingLaws

/-- The context after variables were set to constants, the last one first. -/
def settled (settings : List (String × Constant)) (c : L.Context) : L.Context :=
  settings.foldr (fun s c => L.withVariable s.1 s.2.value c) c

theorem Arises.settled (hh : L.Arises S ⟨c, vs⟩) (settings : List (String × Constant)) :
    L.Arises S ⟨L.settled settings c, vs⟩ := by
  induction settings with
  | nil => exact hh
  | cons s rest ih =>
      exact ((ih.constant s.2).withVariable (mem_concat _ _)).select
        fun _ hv => List.mem_append_left _ hv

theorem Alike.settled (h : Alike S ⟨c, vs⟩ ⟨c', vs'⟩) (settings : List (String × Constant)) :
    Alike S ⟨L.settled settings c, vs⟩ ⟨L.settled settings c', vs'⟩ := by
  induction settings with
  | nil => exact h
  | cons s rest ih => exact ih.assign (made_constant S s.2)

namespace SettingLaws

variable (hL : L.SettingLaws S names)

include hL

/-- One more setting goes to its place among the others. -/
theorem settled_insert (hn : n ∈ names) (hh : L.Arises S ⟨c, vs⟩) (k : Constant)
    {settings : List (String × Constant)} (hnames : ∀ s ∈ settings, s.1 ∈ names) :
    Alike S ⟨L.withVariable n k.value (L.settled settings c), vs⟩
      ⟨L.settled (Entries.insert n k settings) c, vs⟩ := by
  induction settings with
  | nil => exact .refl _
  | cons s rest ih =>
      have hrest := hh.settled rest
      rw [Entries.insert]
      split
      · next heq =>
        cases heq
        exact hL.assign_assign hn hrest (made_constant S s.2) (made_constant S k)
      · next hne =>
        split
        · exact .refl _
        · have hcomm := hL.assign_comm hn (hnames s List.mem_cons_self) hne hrest k
            (made_constant S s.2)
          exact hcomm.trans
            ((ih fun t ht => hnames t (List.mem_cons_of_mem _ ht)).assign (made_constant S s.2))

/-- What is made for a variable goes below the settings of the others. -/
theorem assign_settled (hn : n ∈ names) (hh : L.Arises S ⟨c, vs⟩) (ha : Made S a)
    {settings : List (String × Constant)} (hnames : ∀ s ∈ settings, s.1 ∈ names ∧ s.1 ≠ n) :
    Alike S ⟨L.assign n a (L.settled settings c), vs⟩
      ⟨L.settled settings (L.assign n a c), vs⟩ := by
  induction settings with
  | nil => exact .refl _
  | cons s rest ih =>
      rcases hnames s List.mem_cons_self with ⟨hmem, hne⟩
      have hcomm := hL.assign_comm hmem hn hne (hh.settled rest) s.2 ha
      exact hcomm.symm.trans
        ((ih fun t ht => hnames t (List.mem_cons_of_mem _ ht)).assign (made_constant S s.2))

/-- So does what is made and held. -/
theorem made_settled (hh : L.Arises S ⟨c, vs⟩) (ha : Made S a)
    {settings : List (String × Constant)} (hnames : ∀ s ∈ settings, s.1 ∈ names) :
    let made := a.run (L.settled settings c)
    Alike S ⟨made.2, vs ++ [made.1]⟩ ⟨L.settled settings (a.run c).2, vs ++ [(a.run c).1]⟩ := by
  induction settings with
  | nil => exact .refl _
  | cons s rest ih =>
      have hmade := hL.made_assign (hnames s List.mem_cons_self) (hh.settled rest) s.2 ha
      exact hmade.trans
        ((ih fun t ht => hnames t (List.mem_cons_of_mem _ ht)).assign (made_constant S s.2))

end SettingLaws

end WebLanguage

end MapStyling
