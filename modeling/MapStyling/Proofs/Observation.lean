import MapStyling.Interpreters
import MapStyling.Proofs.EmbeddedScript.Laws
import MapStyling.Proofs.Kinds
import MapStyling.Proofs.WebScript.Quiet

/-!
# Questions Change Nothing

Evaluation as an observation, on engines of every kind and for every language.

The variables of all scripts, and what they hold, are shared. A script that declares
variables and assigns to no others leaves what is shared as it is. It may then do what it
likes: return any value, throw, call what it finds in the globals, or not be there at
all. When the scope of the evaluation is closed, the session is what it was: the values
on the stack, the functions and their number, the scene, and everything that scripts can
see. So an answer does not depend on what was asked before.

Whether a script leaves what is shared alone is a matter of its run. In an embedded
language such a run declares variables on top of its scope and does nothing else to it,
and what the engine relies on is that rewinding takes these away. In a language of web
pages it may make new objects, and leaves a context that nobody can tell from the old one
who has what the engine has.

## Main definitions

* `BackendKind.LeavesShared`: Questions that leave what is shared as it is.
* `BackendKind.Unchanged`: Engines that nobody can tell apart.

## Theorems

* `questions_observe`: A question that leaves what is shared as it is leaves the session as
  it was, and is answered as if it were the only one.
-/

namespace MapStyling

section

variable [Languages]

namespace BackendKind

/-- Whether the script of a question assigns to nothing that scripts share: no variable or object
    that was there before looks otherwise when it has run, however it has ended. For web pages,
    not to scripts of the allowed sources. -/
def LeavesShared (S : String → Prop) : (k : BackendKind) → k.EngineState → Question → Prop
  | web => WebEngine.LeavesShared S
  | embedded => EmbeddedEngine.LeavesShared

/-- The same engine, or one with the same stack and functions in a context that looks the
    same. -/
def Unchanged (S : String → Prop) : (k : BackendKind) → k.EngineState → k.EngineState → Prop
  | web => WebEngine.Unchanged S
  | embedded => fun e e' => e' = e

variable {k : BackendKind} {S : String → Prop}

theorem Unchanged.refl (e : k.EngineState) : k.Unchanged S e e := by
  cases k with
  | web => exact ⟨rfl, rfl, .refl _⟩
  | embedded => rfl

/-- Unchanged engines are asked alike. -/
theorem Unchanged.ask {s s' : Session k.EngineState} (h : k.Unchanged S s.engine s'.engine)
    (q : Question) : (q.ask.run s').1 = (q.ask.run s).1 := by
  cases k with
  | web => exact ((WebEngine.Unchanged.twins h).ask WebLanguage.Alike.bisimulation
      (fun _ ho => ho.allowed) q).1
  | embedded =>
      have heq : s'.engine = s.engine := h
      rw [Engine.run_ask, Engine.run_ask, heq]

/-- A question of this kind leaves an engine unchanged, whatever questions of this kind were
    asked before. -/
theorem LeavesShared.ask (hk : k.Rewinds) {steps : List Step} {q : Question}
    {s : Session k.EngineState}
    (hq : k.LeavesShared S (Session.reach steps (Session.new k.newEngine)).engine q)
    (h : k.Unchanged S (Session.reach steps (Session.new k.newEngine)).engine s.engine) :
    k.Unchanged S (Session.reach steps (Session.new k.newEngine)).engine
      (q.ask.run s).2.engine := by
  cases k with
  | web => exact WebEngine.LeavesShared.ask hq h
  | embedded =>
      have heq : s.engine = _ := h
      have hpending : EmbeddedEngine.PendingOnStack s.engine := by
        rw [heq]
        exact EmbeddedEngine.pendingOnStack_reach steps
      rw [← heq] at hq ⊢
      exact congrArg Session.engine (EmbeddedEngine.LeavesShared.ask hk hpending hq)

end BackendKind

/-- A session with the scene and the count of another one, on an engine that is unchanged. -/
structure Session.Unchanged {k : BackendKind} (S : String → Prop) (s s' : Session k.EngineState) :
    Prop where
  sceneId : s'.sceneId = s.sceneId
  functionCount : s'.functionCount = s.functionCount
  engine : k.Unchanged S s.engine s'.engine

/-- Every question that leaves what scripts share as it is leaves the session as it was, on all
    sessions that steps lead to, whatever comes of it. So any such questions, in any order and as
    often as one likes, are each answered as if they were the first. -/
theorem questions_observe (k : BackendKind) (hk : k.Rewinds) (S : String → Prop)
    (steps : List Step) :
    let s := Session.reach steps (Session.new k.newEngine)
    (∀ q : Question, k.LeavesShared S s.engine q → Session.Unchanged S s (q.ask.run s).2) ∧
    ∀ questions : List Question, (∀ q ∈ questions, k.LeavesShared S s.engine q) →
      ((askAll questions).run s).1 = questions.map (fun q => (q.ask.run s).1) ∧
        Session.Unchanged S s ((askAll questions).run s).2 := by
  intro s
  -- One question more on a session that is unchanged by those before it.
  have hask : ∀ (q : Question) (t : Session k.EngineState), k.LeavesShared S s.engine q →
      Session.Unchanged S s t → (q.ask.run t).1 = (q.ask.run s).1 ∧
        Session.Unchanged S s (q.ask.run t).2 := by
    intro q t hq ht
    have hengine := hq.ask hk ht.engine
    refine ⟨ht.engine.ask q, ?_⟩
    rw [Engine.run_ask] at hengine ⊢
    exact ⟨ht.sceneId, ht.functionCount, hengine⟩
  have hself : Session.Unchanged S s s := ⟨rfl, rfl, .refl _⟩
  refine ⟨fun q hq => (hask q s hq hself).2, fun questions => ?_⟩
  -- The questions are asked of a session that is unchanged, though another one each time.
  suffices hall : ∀ t : Session k.EngineState, Session.Unchanged S s t →
      (∀ q ∈ questions, k.LeavesShared S s.engine q) →
      ((askAll questions).run t).1 = questions.map (fun q => (q.ask.run s).1) ∧
        Session.Unchanged S s ((askAll questions).run t).2 from fun h => hall s hself h
  induction questions with
  | nil => exact fun t ht _ => ⟨rfl, ht⟩
  | cons q rest ih =>
      intro t ht h
      rcases hask q t (h q List.mem_cons_self) ht with ⟨hanswer, hafter⟩
      rcases ih _ hafter fun p hp => h p (List.mem_cons_of_mem _ hp) with ⟨hanswers, hlast⟩
      exact ⟨congrArg₂ List.cons hanswer hanswers, hlast⟩

end

section

open scoped Interpreters

/-- A function with a variable of its own, and a value on the stack. -/
def locallyAssigned : List Step :=
  [.call (.setFunctions ["function () { let a = 1; a = 2; return a; }"]), .hold (.scalar "held")]

theorem questions_observe_locallyAssigned :
    (∀ k : BackendKind, k.Rewinds) ∧ ∀ k : BackendKind,
      let s := Session.reach locallyAssigned (Session.new k.newEngine)
      (∀ q : Question, k.LeavesShared (fun _ => True) s.engine q ∧
        Session.Unchanged (fun _ => True) s (q.ask.run s).2) ∧
      ∀ questions : List Question,
        ((askAll questions).run s).1 = questions.map fun q => (q.ask.run s).1 := by
  have hrewinds : ∀ k : BackendKind, k.Rewinds := by
    intro k
    cases k with
    | web => trivial
    | embedded => exact EmbeddedScript.scopeLaws.rewinds
  refine ⟨hrewinds, fun k => ?_⟩
  intro s
  have hleaves : ∀ q : Question, k.LeavesShared (fun _ => True) s.engine q := by
    cases k with
    | web =>
        have hquiet : ∀ step ∈ locallyAssigned, ∀ source ∈ step.sources,
            WebScript.isQuiet (WebEngine.scriptText source) = true := by
          decide +kernel
        exact (WebScript.upholds_seemsCalm.reach locallyAssigned hquiet _
          WebScript.seemsCalm_new).leavesShared
    | embedded =>
        have hslots : (EmbeddedEngine.functions s.engine).slots.all (Option.all fun script =>
            EmbeddedScript.bodyIsLocal [] (EmbeddedScript.Script.body script)) = true := by
          decide +kernel
        intro q
        refine EmbeddedScript.leavesShared_of_local ?_
        unfold EmbeddedScript.isLocalQuestion FunctionTable.get?
        rcases hq : (EmbeddedEngine.functions s.engine).slots[q.index]? with _ | slot
        · rfl
        · exact List.all_eq_true.mp hslots slot (List.mem_of_getElem? hq)
  rcases questions_observe k (hrewinds k) (fun _ => True) locallyAssigned with ⟨hone, hall⟩
  exact ⟨fun q => ⟨hleaves q, hone q (hleaves q)⟩,
    fun questions => (hall questions fun q _ => hleaves q).1⟩

end

end MapStyling
