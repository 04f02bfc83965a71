import MapStyling.Proofs.WebLanguage.Reached

/-!
# Making Values

What is made of nothing, next to what is held.

An engine makes trees, features and functions, and to do so it uses no value but those it
has made itself. Such an action is a run of operations on an empty hand. It takes related
contexts to related ones for every relation of which its operations show nothing, and this
is all that has to be known of it: that it keeps to what a language comes to, that it is
alike in alike contexts, and that the same is made whatever else is held, are cases of it.

## Main definitions

* `Holding.after`: What is held after some operations.
* `WebLanguage.Alongside`: What comes of two contexts by the same operations.
* `WebLanguage.Made`: Actions that make a value of nothing.
* `WebLanguage.Arises`: Contexts and some of the values that a language comes to.

## Theorems

* `Operation.perform_behind`: Operations do not see what is held in front of their values.
* `Arises.made`, `Alike.made`: What is made behind what is held.
-/

namespace MapStyling

namespace WebLanguage

variable {L : WebLanguage} {S : String → Prop} {A B : Operation → Prop}
  {T : Holding L → Holding L → Prop} {h : Holding L} {a : StateM L.Context L.Value}
  {c c' : L.Context} {vs vs' : List L.Value}

/-- What is held after some operations, one after the other. -/
def Holding.after (operations : List Operation) (h : Holding L) : Holding L :=
  operations.foldl (fun h o => (o.perform h).2) h

theorem Holding.after_concat (operations : List Operation) (o : Operation) (h : Holding L) :
    after (operations ++ [o]) h = (o.perform (after operations h)).2 :=
  List.foldl_concat ..

theorem replies_concat (operations : List Operation) (o : Operation) : ∀ h : Holding L,
    replies (operations ++ [o]) h
      = replies operations h ++ [(o.perform (Holding.after operations h)).1] := by
  induction operations with
  | nil => exact fun h => rfl
  | cons p rest ih => exact fun h => congrArg (List.cons (p.perform h).1) (ih (p.perform h).2)

theorem Holding.length_after (operations : List Operation) : ∀ h : Holding L,
    (after operations h).values.length = h.values.length + operations.length := by
  induction operations with
  | nil => exact fun h => rfl
  | cons o rest ih =>
      intro h
      change (after rest (o.perform h).2).values.length = _
      rw [ih, length_perform, List.length_cons]
      omega

/-- An operation on the last of some values does not see those in front of them. -/
theorem Operation.perform_behind (o : Operation) (c : L.Context) (vs ws : List L.Value) :
    (o.rename (· + vs.length)).perform ⟨c, vs ++ ws⟩
      = ((o.perform ⟨c, ws⟩).1,
        ⟨(o.perform ⟨c, ws⟩).2.context, vs ++ (o.perform ⟨c, ws⟩).2.values⟩) := by
  have hact : (o.rename (· + vs.length)).act ⟨c, vs ++ ws⟩ = o.act ⟨c, ws⟩ := by
    refine o.act_rename rfl fun i => ?_
    change ((vs ++ ws)[i + vs.length]?).getD L.undefined = (ws[i]?).getD L.undefined
    rw [List.getElem?_append_right (Nat.le_add_left _ _), Nat.add_sub_cancel]
  unfold perform
  rw [hact]
  dsimp only
  rw [List.append_assoc]

/-- Fewer operations may be performed. -/
theorem Bisimulation.mono (hT : Bisimulation A T) (h : ∀ o, B o → A o) : Bisimulation B T :=
  ⟨hT.length, fun k k' hk o ho => hT.step k k' hk o (h o ho)⟩

theorem Bisimulation.makes (hT : Bisimulation (Operation.Allowed S) T) :
    Bisimulation (Operation.Makes S) T :=
  hT.mono fun _ ho => ho.allowed

/-- What is held behind other values is in a relation if all of it is. -/
theorem Bisimulation.behind (hT : Bisimulation (Operation.Allowed S) T)
    (hlength : vs'.length = vs.length) : Bisimulation (Operation.Allowed S) fun k k' =>
      T ⟨k.context, vs ++ k.values⟩ ⟨k'.context, vs' ++ k'.values⟩ where
  length := by
    intro k k' hk
    have hall := hT.length _ _ hk
    simp only [List.length_append] at hall
    omega
  step := by
    intro k k' hk o ho
    have hstep := hT.step _ _ hk _ (o.allowed_rename ho (· + vs.length))
    have hbehind' := o.perform_behind k'.context vs' k'.values
    rw [hlength] at hbehind'
    rw [o.perform_behind, hbehind'] at hstep
    exact hstep

/-- What comes of two contexts by the same operations. -/
def Alongside (S : String → Prop) (c c' : L.Context) (k k' : Holding L) : Prop :=
  ∃ operations : List Operation, (∀ o ∈ operations, o.Makes S) ∧
    Holding.after operations ⟨c, []⟩ = k ∧ Holding.after operations ⟨c', []⟩ = k'

theorem Alongside.refl (c c' : L.Context) : Alongside S c c' ⟨c, []⟩ ⟨c', []⟩ :=
  ⟨[], fun _ ho => absurd ho List.not_mem_nil, rfl, rfl⟩

theorem Alongside.symm {k k' : Holding L} (h : Alongside S c c' k k') : Alongside S c' c k' k := by
  rcases h with ⟨operations, hmakes, hk, hk'⟩
  exact ⟨operations, hmakes, hk', hk⟩

/-- Nothing is seen of the two contexts while something is made if all that is made shows the
    same. -/
theorem bisimulation_alongside (h : ∀ operations : List Operation,
    (∀ o ∈ operations, o.Makes S) → replies operations ⟨c', []⟩ = replies operations ⟨c, []⟩) :
    Bisimulation (Operation.Makes S) (Alongside S c c') where
  length := by
    rintro _ _ ⟨operations, -, rfl, rfl⟩
    rw [Holding.length_after, Holding.length_after]
  step := by
    rintro _ _ ⟨operations, hmakes, rfl, rfl⟩ o ho
    have hmakes' : ∀ p ∈ operations ++ [o], p.Makes S := by
      intro p hp
      rcases List.mem_append.mp hp with hp | hp
      · exact hmakes p hp
      · rwa [List.mem_singleton.mp hp]
    -- What the last operation shows is the last of all that is shown.
    have hreplies := h _ hmakes'
    rw [replies_concat, replies_concat] at hreplies
    refine ⟨(List.cons.inj (List.append_inj' hreplies rfl).2).1, _, hmakes', ?_, ?_⟩
    · exact Holding.after_concat operations o _
    · exact Holding.after_concat operations o _

/-- Actions that make a value by operations that hold nothing at first. There is one way to
    do so, which is taken in all contexts of which operations show nothing else. -/
def Made (S : String → Prop) (a : StateM L.Context L.Value) : Prop :=
  ∀ T : Holding L → Holding L → Prop, Bisimulation (Operation.Makes S) T →
    ∀ c c', T ⟨c, []⟩ ⟨c', []⟩ → ∃ vs vs', T ⟨(a.run c).2, vs⟩ ⟨(a.run c').2, vs'⟩ ∧
      Beside vs vs' (a.run c).1 (a.run c').1

theorem made_constant (S : String → Prop) (k : Constant) :
    Made S (pure k.value : StateM L.Context L.Value) := by
  intro T hT c c' h
  exact ⟨[k.value], [k.value], (hT.step _ _ h (.constant k) trivial).2, 0, rfl, rfl⟩

/-- Contexts that a language comes to, with some of the values that came of it. -/
def Arises (L : WebLanguage) (S : String → Prop) (h : Holding L) : Prop :=
  ∃ k f, L.Common (Operation.Allowed S) k ∧ k.Includes f h

namespace Arises

/-- A holding all of whose values are values of another one. -/
theorem of_forall_mem {k : Holding L} (hk : L.Common (Operation.Allowed S) k)
    (hcontext : k.context = h.context) (hundefined : L.undefined ∈ k.values)
    (hvs : ∀ v ∈ h.values, v ∈ k.values) : L.Arises S h := by
  have hposition : ∀ i, ∃ j, j < k.values.length ∧ k.value j = h.value i := by
    intro i
    have hmem : h.value i ∈ k.values := by
      rcases hi : h.values[i]? with _ | v
      · rwa [Holding.value, hi]
      · rw [Holding.value_eq hi]
        exact hvs v (List.mem_of_getElem? hi)
    rcases List.mem_iff_getElem?.mp hmem with ⟨j, hj⟩
    exact ⟨j, (List.getElem?_eq_some_iff.mp hj).1, Holding.value_eq hj⟩
  choose f hf hvalue using hposition
  exact ⟨k, f, hk, hcontext, hf, hvalue⟩

/-- All that is held where a language comes to is there at once. -/
theorem common (hh : L.Arises S h) : ∃ k, L.Common (Operation.Allowed S) k ∧
    k.context = h.context ∧ L.undefined ∈ k.values ∧ ∀ v ∈ h.values, v ∈ k.values := by
  rcases hh with ⟨k, f, hk, hf⟩
  have hmem : ∀ i, h.value i ∈ k.values := by
    intro i
    rw [← hf.value, Holding.value, List.getElem?_eq_getElem (hf.lt_length i)]
    exact List.getElem_mem _
  refine ⟨k, hk, hf.context, ?_, fun v hv => ?_⟩
  · have hbehind := hmem h.values.length
    rwa [Holding.value, List.getElem?_eq_none (Nat.le_refl _)] at hbehind
  · rcases List.mem_iff_getElem?.mp hv with ⟨i, hi⟩
    rw [← Holding.value_eq hi]
    exact hmem i

theorem of_common (hh : L.Common (Operation.Allowed S) h) : L.Arises S h :=
  of_forall_mem (hh.perform (.constant .undefined) trivial) rfl
    (List.mem_append_right _ (List.mem_singleton.mpr rfl))
    fun _ hv => List.mem_append_left _ hv

theorem select (hh : L.Arises S h) (hvs : ∀ v ∈ vs, v ∈ h.values) :
    L.Arises S ⟨h.context, vs⟩ := by
  rcases hh.common with ⟨k, hk, hcontext, hundefined, hmem⟩
  exact of_forall_mem hk hcontext hundefined fun v hv => hmem v (hvs v hv)

theorem perform (hh : L.Arises S h) {o : Operation} (ho : o.Allowed S) :
    L.Arises S (o.perform h).2 := by
  rcases hh with ⟨k, f, hk, hf⟩
  exact ⟨_, _, hk.perform _ (o.allowed_rename ho f), (hf.perform o).2⟩

theorem bisimulation (L : WebLanguage) (S : String → Prop) :
    Bisimulation (Operation.Allowed S) (Diagonal (L.Arises S)) :=
  .diagonal fun _ _ ho hh => hh.perform ho

/-- What is made arises with what is held. -/
theorem made (hh : L.Arises S ⟨c, vs⟩) (ha : Made S a) :
    L.Arises S ⟨(a.run c).2, vs ++ [(a.run c).1]⟩ := by
  have hstart : Diagonal (L.Arises S) ⟨c, vs ++ []⟩ ⟨c, vs ++ []⟩ := by
    rw [List.append_nil]
    exact ⟨rfl, hh⟩
  rcases ha _ ((bisimulation L S).behind rfl).makes c c hstart with
    ⟨ws, ws', ⟨-, harises⟩, i, hi, -⟩
  refine harises.select fun v hv => ?_
  rcases List.mem_append.mp hv with hold | hnew
  · exact List.mem_append_left _ hold
  · rw [List.mem_singleton.mp hnew]
    exact List.mem_append_right _ (List.mem_of_getElem? hi)

end Arises

/-- What is alike is so if fewer values are held, which are the same ones on both sides. -/
theorem Alike.of_forall_mem {ws : List L.Value} (h : Alike S ⟨c, ws⟩ ⟨c', ws⟩)
    (hvs : ∀ v ∈ vs, v ∈ ws) : Alike S ⟨c, vs⟩ ⟨c', vs⟩ := by
  refine h.select (List.forall₂_same.mpr fun v hv => ?_)
  rcases List.mem_iff_getElem?.mp (hvs v hv) with ⟨i, hi⟩
  exact ⟨i, hi, hi⟩

/-- Some values of one that are held on either side, and one more. -/
theorem Alike.select_concat {ws ws' us us' : List L.Value} {v v' : L.Value}
    (h : Alike S ⟨c, vs ++ ws⟩ ⟨c', vs' ++ ws'⟩) (hlength : vs'.length = vs.length)
    (hvs : List.Forall₂ (Beside vs vs') us us') (hv : Beside ws ws' v v') :
    Alike S ⟨c, us ++ [v]⟩ ⟨c', us' ++ [v']⟩ :=
  h.select (List.rel_append (hvs.imp fun _ _ hx => hx.append _ _)
    (.cons (hv.prepend _ _ hlength) .nil))

/-- What is made in alike contexts is alike, next to what is held. -/
theorem Alike.made (h : Alike S ⟨c, vs⟩ ⟨c', vs'⟩) (ha : Made S a) :
    Alike S ⟨(a.run c).2, vs ++ [(a.run c).1]⟩ ⟨(a.run c').2, vs' ++ [(a.run c').1]⟩ := by
  have hlength : vs'.length = vs.length := h.length
  have hstart : Alike S ⟨c, vs ++ []⟩ ⟨c', vs' ++ []⟩ := by rwa [List.append_nil, List.append_nil]
  rcases ha _ (Alike.bisimulation.behind hlength).makes c c' hstart with ⟨ws, ws', halike, hv⟩
  refine halike.select_concat hlength ?_ hv
  have hall := Beside.forall₂_left hlength ([] : List L.Value) []
  rwa [List.append_nil, List.append_nil] at hall

end WebLanguage

end MapStyling
