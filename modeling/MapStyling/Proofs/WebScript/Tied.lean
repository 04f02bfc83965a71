import MapStyling.Proofs.WebScript.Twin
import MapStyling.WebScript.Evaluation

/-!
# Tied Runs

Two runs from twin stores that stay side by side.

Tied runs leave twin stores behind, the first of them keeps what it has to
keep, and either both fail or both answer, with answers that belong together.
How runs are tied is shown for each way of putting runs together, and then for
each of the few runs that touch the store. Everything else is put together from
these.

What a run may write to is said by the targets of the term that it runs and by
the scopes of its frame. A frame is ready for some targets if each of them can
be written to without a change below the mark.

## Main definitions

* `Tied`: Two runs side by side.
* `Value.Paired`, `Value.AllPaired`: Answers that belong together.
* `Frame.Ready`: What a frame has to provide.

## Theorems

* `Tied.bind`: Runs one after the other.
* `Tied.property`, `Tied.setProperty`, `Tied.allocate`: Runs on objects.
-/

namespace MapStyling

namespace WebScript

/-- A run goes on where the run before it has ended, if that has an answer. -/
theorem run_bind {α β : Type} (r : Run α) (f : α → Run β) (s : Store) :
    (r >>= f).run s = match r.run s with
      | (some a, s') => (f a).run s'
      | (none, s') => (none, s') := by
  rw [OptionT.run_bind, Option.elimM]
  change (let (x, s') := r.run s
    (Option.elim x (pure none : StateM Store (Option β)) fun a => (f a).run) s') = _
  rcases r.run s with ⟨_ | a, s'⟩ <;> rfl

/-- Two runs from twin stores that stay side by side, with answers in a relation. -/
structure Tied {α β : Type} (m : Nat) (ρ : Nat → Nat) (A : Store → α → β → Prop)
    (r : Run α) (r' : Run β) (s t : Store) : Prop where
  twin : Store.Twin everywhere m ρ (r.run s).2 (r'.run t).2
  keeps : s.Keeps m (r.run s).2
  answers : Option.Rel (A (r.run s).2) (r.run s).1 (r'.run t).1

/-- The same answer on both sides. -/
def Same {α : Type} (_ : Store) (a b : α) : Prop := b = a

namespace Tied

variable {α β γ δ : Type} {m : Nat} {ρ : Nat → Nat} {s t : Store}
  {A : Store → α → β → Prop} {B : Store → γ → δ → Prop}

theorem pure (h : Store.Twin everywhere m ρ s t) {a : α} {b : β} (hab : A s a b) :
    Tied m ρ A (Pure.pure a) (Pure.pure b) s t :=
  ⟨h, .refl m s, .some hab⟩

theorem failure (h : Store.Twin everywhere m ρ s t) :
    Tied m ρ A Alternative.failure Alternative.failure s t :=
  ⟨h, .refl m s, .none⟩

theorem failure_bind (h : Store.Twin everywhere m ρ s t) {f : α → Run γ} {g : β → Run δ} :
    Tied m ρ B (Alternative.failure >>= f) (Alternative.failure >>= g) s t :=
  ⟨h, .refl m s, .none⟩

theorem bind {r : Run α} {r' : Run β} {f : α → Run γ} {g : β → Run δ}
    (h : Tied m ρ A r r' s t)
    (hf : ∀ a b s' t', Store.Twin everywhere m ρ s' t' → s.Keeps m s' → A s' a b →
      Tied m ρ B (f a) (g b) s' t') :
    Tied m ρ B (r >>= f) (r' >>= g) s t := by
  have hs := run_bind r f s
  have ht := run_bind r' g t
  rcases h with ⟨htwin, hkeeps, hans⟩
  generalize r.run s = e at *
  generalize r'.run t = e' at *
  rcases e with ⟨a?, s'⟩
  rcases e' with ⟨b?, t'⟩
  -- Both first runs fail, or both answer, and then the second runs are tied.
  cases hans with
  | none =>
      refine ⟨?_, ?_, ?_⟩ <;> rw [hs]
      · rw [ht]
        exact htwin
      · exact hkeeps
      · rw [ht]
        exact .none
  | some hab =>
      rcases hf _ _ s' t' htwin hkeeps hab with ⟨htwin', hkeeps', hans'⟩
      refine ⟨?_, ?_, ?_⟩ <;> rw [hs]
      · rw [ht]
        exact htwin'
      · exact hkeeps.trans hkeeps'
      · rw [ht]
        exact hans'

theorem get_bind {f : Store → Run γ} {g : Store → Run δ} (h : Tied m ρ B (f s) (g t) s t) :
    Tied m ρ B (get >>= f) (get >>= g) s t := by
  rcases h with ⟨htwin, hkeeps, hans⟩
  exact ⟨htwin, hkeeps, hans⟩

theorem modify {f g : Store → Store} (h : Store.Twin everywhere m ρ (f s) (g t))
    (hk : s.Keeps m (f s)) :
    Tied m ρ Same (modify f : Run Unit) (modify g : Run Unit) s t :=
  ⟨h, hk, .some rfl⟩

theorem set {s' t' : Store} (h : Store.Twin everywhere m ρ s' t') (hk : s.Keeps m s') :
    Tied m ρ Same (set s' : Run Unit) (set t' : Run Unit) s t :=
  ⟨h, hk, .some rfl⟩

theorem imp {r : Run α} {r' : Run β} {A' : Store → α → β → Prop} (h : Tied m ρ A r r' s t)
    (hA : ∀ s' a b, s.Keeps m s' → A s' a b → A' s' a b) : Tied m ρ A' r r' s t := by
  rcases h with ⟨htwin, hkeeps, hans⟩
  refine ⟨htwin, hkeeps, ?_⟩
  generalize (r.run s).1 = a? at hans ⊢
  generalize (r'.run t).1 = b? at hans ⊢
  cases hans with
  | none => exact .none
  | some hab => exact .some (hA _ _ _ hkeeps hab)

theorem discard {r : Run α} {r' : Run β} (h : Tied m ρ A r r' s t) :
    Tied m ρ Same (Functor.discard r) (Functor.discard r') s t := by
  have hd : ∀ {α : Type} (r : Run α), Functor.discard r = r >>= fun _ => Pure.pure () := by
    intro α r
    rw [bind_pure_comp]
    rfl
  rw [hd, hd]
  exact h.bind fun _ _ _ _ h' _ _ => .pure h' rfl

end Tied

/-- A value of one store, and the same one of the other. -/
def Value.Paired (ρ : Nat → Nat) (s : Store) (v w : Value) : Prop :=
  w = v.moved ρ ∧ v.Below s.size

/-- Values of one store, and the same ones of the other. -/
def Value.AllPaired (ρ : Nat → Nat) (s : Store) (vs ws : List Value) : Prop :=
  ws = vs.map (Value.moved ρ) ∧ ∀ v ∈ vs, v.Below s.size

/-- A frame with its addresses moved. -/
def Frame.moved (ρ : Nat → Nat) (frame : Frame) : Frame :=
  ⟨frame.scopes.map ρ, frame.self.moved ρ⟩

/-- A frame of a store from which some targets can be written to without a change
    below a mark. -/
structure Frame.Ready (m : Nat) (s : Store) (targets : List Target) (frame : Frame) : Prop where
  scopes : ∀ a ∈ frame.scopes, a < s.size
  self : frame.self.Below s.size
  writable : ∀ x ∈ targets, s.Writable m frame.scopes x

namespace Frame.Ready

variable {m : Nat} {s t : Store} {targets others : List Target} {frame : Frame}

theorem keeps (h : frame.Ready m s targets) (hk : s.Keeps m t) : frame.Ready m t targets where
  scopes := fun a ha => Nat.lt_of_lt_of_le (h.scopes a ha) hk.size_le
  self := h.self.mono hk.size_le
  writable := fun x hx => hk.writable (h.writable x hx)

theorem subset (h : frame.Ready m s targets) (hs : others ⊆ targets) :
    frame.Ready m s others :=
  ⟨h.scopes, h.self, fun x hx => h.writable x (hs hx)⟩

theorem left (h : frame.Ready m s (targets ++ others)) : frame.Ready m s targets :=
  h.subset (List.subset_append_left _ _)

theorem right (h : frame.Ready m s (targets ++ others)) : frame.Ready m s others :=
  h.subset (List.subset_append_right _ _)

theorem head {x : Target} (h : frame.Ready m s (x :: targets)) : frame.Ready m s [x] :=
  h.subset (List.cons_subset_cons x (List.nil_subset _))

theorem tail {x : Target} (h : frame.Ready m s (x :: targets)) : frame.Ready m s targets :=
  h.subset (List.subset_cons_self _ _)

end Frame.Ready

theorem typeOf_moved {m : Nat} {ρ : Nat → Nat} {s t : Store}
    (h : Store.Twin everywhere m ρ s t) (v : Value) :
    WebScript.typeOf t (v.moved ρ) = WebScript.typeOf s v := by
  have hc := h.alike.closure? v.in_everywhere
  cases v with
  | reference a =>
      rw [Value.moved_reference] at hc ⊢
      simp only [WebScript.typeOf, hc, Option.isSome_map]
  | _ => rfl

namespace Tied

variable {m : Nat} {ρ : Nat → Nat} {s t : Store}

/-- No value of a type without addresses is moved. -/
theorem pure_value (h : Store.Twin everywhere m ρ s t) {v : Value} (hv : v.address? = none) :
    Tied m ρ (Value.Paired ρ) (Pure.pure v) (Pure.pure v) s t :=
  .pure h ⟨(Value.moved_of_no_address hv).symm, Value.below_of_no_address hv⟩

theorem property (h : Store.Twin everywhere m ρ s t) (v : Value) (name : Units) :
    Tied m ρ (Value.Paired ρ) (WebScript.property v name)
      (WebScript.property (v.moved ρ) name) s t := by
  unfold WebScript.property
  rw [Value.isNothing_moved]
  split
  · exact failure_bind h
  · refine get_bind (pure h ?_)
    rw [h.alike.property? h.sound.grounded v.in_everywhere]
    rcases hp : s.property? v name with _ | w
    · exact ⟨rfl, Value.below_of_no_address rfl⟩
    · exact ⟨rfl, h.sound.below_property? hp⟩

theorem setProperty (h : Store.Twin everywhere m ρ s t) (target : Value) (name : Units)
    {v : Value} (hm : ∀ a, target.address? = some a → m ≤ a) (hv : v.Below s.size) :
    Tied m ρ Same (WebScript.setProperty target name v)
      (WebScript.setProperty (target.moved ρ) name (v.moved ρ)) s t := by
  unfold WebScript.setProperty
  refine get_bind ?_
  have hrel := h.setProperty? name hm target.in_everywhere hv v.in_everywhere
  generalize s.setProperty? target name v = s? at hrel ⊢
  generalize t.setProperty? (target.moved ρ) name (v.moved ρ) = t? at hrel ⊢
  cases hrel with
  | none => exact failure h
  | some hst => exact set hst.1 hst.2

/-- A new cell has the next free address on either side. -/
theorem allocate (h : Store.Twin everywhere m ρ s t) {c d : Cell} (hcd : Cell.Alike ρ c d)
    (hc : ∀ b ∈ c.addresses, b < s.size) (hp : c.parent.address? = none)
    (hf : ∀ f scopes self p properties, c = .object (.closure f scopes self) p properties →
      ∀ x ∈ f.targets, s.Writable m scopes x) :
    Tied m ρ (fun s' a b => s' = (s.add c).2 ∧ a = s.size ∧ b = ρ a)
      (WebScript.allocate c) (WebScript.allocate d) s t := by
  refine ⟨h.add hcd hc hp hf, .add s c h.sound.mark_le, .some ⟨rfl, rfl, ?_⟩⟩
  exact h.alike.move_size.symm

/-- A new object without a parent in the store. -/
theorem allocateObject (h : Store.Twin everywhere m ρ s t) (shape : Shape) (family : Family)
    (hshape : shape = .plain ∨ ∃ n, shape = .array n) {properties : List (Units × Value)}
    (hp : ∀ p ∈ properties, p.2.Below s.size) :
    Tied m ρ (fun s' a b => Value.Paired ρ s' (.reference a) (.reference b) ∧ m ≤ a)
      (WebScript.allocate (.object shape (.common family) properties))
      (WebScript.allocate (.object shape (.common family)
        (properties.map fun p => (p.1, p.2.moved ρ)))) s t := by
  -- A plain object and an array have no addresses besides those of their properties.
  have hmoved : shape.moved ρ = shape := by
    rcases hshape with hs | ⟨n, hs⟩ <;> rw [hs] <;> rfl
  have hcd : Cell.Alike ρ (.object shape (.common family) properties)
      (.object (shape.moved ρ) (.common family) (properties.map fun p => (p.1, p.2.moved ρ))) :=
    .object shape (.common family) fun n => Entries.lookup_map (Value.moved ρ) n properties
  rw [hmoved] at hcd
  refine (allocate h hcd ?_ rfl ?_).imp fun s' a b hk hab => ?_
  · intro b hb
    have hmem : b ∈ properties.filterMap (·.2.address?) := by
      rcases hshape with hs | ⟨n, hs⟩ <;> subst hs <;>
        simpa only [Cell.addresses, Value.address?, Option.toList_none, List.append_nil] using hb
    rcases List.mem_filterMap.mp hmem with ⟨p, hmem, hpb⟩
    exact hp p hmem b hpb
  · intro f scopes self p qs heq
    rcases hshape with hs | ⟨n, hs⟩ <;> subst hs <;> cases heq
  · rcases hab with ⟨hs', ha, hb⟩
    refine ⟨⟨by rw [hb, Value.moved_reference], Value.below_reference ?_⟩, ?_⟩
    · rw [hs', Store.size_add, ha]
      omega
    · rw [ha]
      exact h.sound.mark_le

end Tied

end WebScript

end MapStyling
