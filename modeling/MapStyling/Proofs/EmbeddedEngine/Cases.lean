import MapStyling.Proofs.Cases
import MapStyling.Proofs.EmbeddedEngine.Scenes

/-!
# Cases on Engines of Embedded Scripts

What an engine is between the runs of cases whose scripts leave alone what they share.

Such an engine is known completely: four variables were declared before the first script,
and they hold what was installed and shown last. The library belongs to the globals. A run
puts its own globals, functions, keys and feature in place of these, so a question is asked
of an engine that only what the case finds has an influence on.

## Main definitions

* `EmbeddedLanguage.settled`: A scope in which some variables were set.
* `EmbeddedEngine.standing`: The engine with some globals, keys, feature and functions.
* `EmbeddedEngine.Rests`: Stylers between the runs of cases.

## Theorems

* `EmbeddedLanguage.ScopeLaws.setVariable_settled`: A variable that is set once more.
* `EmbeddedEngine.Rests.run`: What the run of a case leaves.
* `EmbeddedEngine.Rests.run_eq`: What the run of a case comes to.
-/

namespace MapStyling

variable {L : EmbeddedLanguage}

namespace EmbeddedLanguage

/-- A scope in which some variables were set, the last one first. -/
def settled (L : EmbeddedLanguage) (settings : List (String × L.Value)) (s : L.Scope) : L.Scope :=
  settings.foldr (fun x s => L.setVariable x.1 x.2 s) s

/-- Variables that are there remain when others are set. -/
theorem VariableLaws.isSome_settled (hL : L.VariableLaws) {s : L.Scope} {m : String}
    (h : (L.getVariable? s m).isSome = true) (settings : List (String × L.Value)) :
    (L.getVariable? (L.settled settings s) m).isSome = true := by
  induction settings with
  | nil => exact h
  | cons x rest ih =>
      change (L.getVariable? (L.setVariable x.1 x.2 (L.settled rest s)) m).isSome = true
      rw [hL.getVariable?_setVariable]
      split
      · rfl
      · exact ih

/-- A variable that is set once more holds the new value, and nothing is left of the order. -/
theorem ScopeLaws.setVariable_settled (hL : L.ScopeLaws) {s : L.Scope} {n : String} (v : L.Value)
    {settings : List (String × L.Value)} (hn : n ∈ settings.map Prod.fst)
    (hs : ∀ m ∈ settings.map Prod.fst, (L.getVariable? s m).isSome = true) :
    L.setVariable n v (L.settled settings s) = L.settled (Entries.put n v settings) s := by
  induction settings with
  | nil => exact absurd hn List.not_mem_nil
  | cons x rest ih =>
      rcases x with ⟨m, w⟩
      change L.setVariable n v (L.setVariable m w (L.settled rest s)) = _
      rw [Entries.put]
      split
      · next heq =>
        cases heq
        exact hL.setVariable_setVariable _ _ _ _
      · next hne =>
        have hrest : n ∈ rest.map Prod.fst :=
          (List.mem_cons.mp hn).resolve_left (Ne.symm hne)
        rw [hL.setVariable_comm _ _ _ _ _ (Ne.symm hne) (hL.isSome_settled (hs n hn) rest)
          (hL.isSome_settled (hs m List.mem_cons_self) rest),
          ih hrest fun k hk => hs k (List.mem_cons_of_mem _ hk)]
        rfl

end EmbeddedLanguage

namespace EmbeddedEngine

/-- The library and the value that a tree of globals comes to, or what there is without one. -/
def found (L : EmbeddedLanguage) (globals : Option SceneNode) : L.Script × L.Value :=
  match Seeding.tree? globals with
  | none => (L.noScript, L.unit)
  | some node => installed node

/-- What scripts find in the variable of the zoom. -/
def zoomValue (L : EmbeddedLanguage) (keys : FilterCache) : L.Value :=
  (keys.zoom.map L.ofInteger).getD L.unit

/-- What scripts find in the variable of the geometry. -/
def geometryValue (L : EmbeddedLanguage) (keys : FilterCache) : L.Value :=
  (keys.geometry.map fun n => L.ofText (Geometry.nameOfCode n)).getD L.unit

/-- The variables of an engine with some globals, keys and feature. -/
def settings (L : EmbeddedLanguage) (globals : Option SceneNode) (keys : FilterCache)
    (feature : Option Feature) : List (String × L.Value) :=
  [(globalsName, (found L globals).2), (geometryName, geometryValue L keys),
    (zoomName, zoomValue L keys), (featureName, featureValue feature)]

/-- The engine with some globals, keys, feature and functions. -/
def standing (globals : Option SceneNode) (keys : FilterCache) (feature : Option Feature)
    (functions : FunctionTable L.Script) : EmbeddedEngine L where
  scope := L.settled (settings L globals keys feature) initialScope
  stack := .empty
  functions := functions
  library := (found L globals).1
  pending := []
  made := 0

theorem resting_standing (globals : Option SceneNode) (keys : FilterCache)
    (feature : Option Feature) (functions : FunctionTable L.Script) :
    Resting (standing globals keys feature functions) := ⟨rfl, rfl, rfl⟩

/-- The variables of scripts are there from the start, and hold nothing. -/
theorem getVariable?_initialScope (hL : L.VariableLaws) :
    ∀ n ∈ [globalsName, geometryName, zoomName, featureName],
      L.getVariable? initialScope n = some L.unit := by
  intro n hn
  unfold initialScope
  simp only [List.foldl_cons, List.foldl_nil, hL.getVariable?_declare]
  simp only [List.mem_cons, List.not_mem_nil, or_false] at hn
  rcases hn with rfl | rfl | rfl | rfl <;> rfl

section

variable (hL : L.ScopeLaws) (globals : Option SceneNode) (keys : FilterCache)
  (feature : Option Feature) (functions : FunctionTable L.Script)

include hL

theorem standing_new : standing none .empty none .empty = (new : EmbeddedEngine L) := by
  have hself : ∀ n ∈ [globalsName, geometryName, zoomName, featureName],
      L.setVariable n L.unit initialScope = initialScope := fun n hn =>
    hL.setVariable_self _ _ _ (getVariable?_initialScope hL.toVariableLaws n hn)
  simp only [List.forall_mem_cons] at hself
  have hscope : L.settled (settings L none .empty none) initialScope = initialScope := by
    change L.setVariable globalsName L.unit (L.setVariable geometryName L.unit
      (L.setVariable zoomName L.unit (L.setVariable featureName L.unit initialScope))) = _
    rw [hself.2.2.2.1, hself.2.2.1, hself.2.1, hself.1]
  unfold standing
  rw [hscope]
  rfl

/-- One of the variables is set once more. -/
theorem setVariable_standing {n : String}
    (hn : n ∈ [globalsName, geometryName, zoomName, featureName])
    (v : L.Value) : L.setVariable n v (standing globals keys feature functions).scope
      = L.settled (Entries.put n v (settings L globals keys feature)) initialScope :=
  hL.setVariable_settled v hn fun m hm => by
    rw [getVariable?_initialScope hL.toVariableLaws m hm]
    rfl

theorem run_installGlobals_standing (others : Option SceneNode) :
    (Seeding.installGlobals others).run (standing globals keys feature functions)
      = ((), standing (if (Seeding.tree? others).isSome then others else globals) keys feature
        functions) := by
  rcases htree : Seeding.tree? others with _ | node
  · exact Engine.run_installGlobals_of_none htree _
  · have hfound : found L others = installed node := by
      unfold found
      rw [htree]
    rw [run_installGlobals_of_tree htree (resting_standing _ _ _ _), Option.isSome_some, if_pos rfl,
      setVariable_standing hL globals keys feature functions (by decide)]
    unfold standing settings
    rw [hfound]
    rfl

theorem run_setFilterKey_standing (key : FilterKey) (n : Int) :
    (Engine.setFilterKey key n : StateM (EmbeddedEngine L) Unit).run
        (standing globals keys feature functions)
      = ((), standing globals (keys.set key n) feature functions) := by
  have hset : ∀ (m : String) (v : L.Value), m ∈ [globalsName, geometryName, zoomName, featureName] →
      (assign m v).run (standing globals keys feature functions)
        = ((), { standing globals keys feature functions with
          scope := L.settled (Entries.put m v (settings L globals keys feature))
            initialScope }) := by
    intro m v hm
    rw [← setVariable_standing hL globals keys feature functions hm]
    rfl
  cases key with
  | zoom => exact hset zoomName _ (by decide)
  | geometry => exact hset geometryName _ (by decide)
  | other => rfl

theorem run_setFeature_standing (other : Option Feature) :
    (Engine.setFeature other : StateM (EmbeddedEngine L) Unit).run
        (standing globals keys feature functions)
      = ((), standing globals keys other functions) := by
  have hset := setVariable_standing hL globals keys feature functions
    (n := featureName) (by decide) (featureValue other)
  change ((), { standing globals keys feature functions with
    scope := L.setVariable featureName (featureValue other)
      (standing globals keys feature functions).scope }) = _
  rw [hset]
  rfl

/-- Keys that were passed on before are there already. -/
theorem passed_standing (key : FilterKey) (n : Int) :
    Case.passed key n keys (standing globals keys feature functions)
      = standing globals (keys.set key n) feature functions := by
  unfold Case.passed
  split
  · next h => rw [FilterCache.set_of_get? h]
  · rw [run_setFilterKey_standing hL]

theorem shown_standing (c : Case) : c.shown keys (standing globals keys feature functions)
    = standing globals (c.keys keys) (some c.feature) functions := by
  have hgeometry : ∀ keys' : FilterCache, keys'.geometry = keys.geometry →
      Case.passed .geometry c.geometry.code keys
          (standing globals keys' (some c.feature) functions)
        = standing globals (keys'.set .geometry c.geometry.code) (some c.feature) functions := by
    intro keys' hkeys
    rw [← passed_standing hL]
    unfold Case.passed FilterCache.get?
    rw [hkeys]
  unfold Case.shown Case.zoomed Case.keys
  rcases c.zoom with _ | level
  · dsimp only
    rw [run_setFeature_standing hL, hgeometry keys rfl]
    rfl
  · dsimp only
    rw [passed_standing hL, run_setFeature_standing hL, hgeometry (keys.set .zoom level) rfl]
    rfl

omit hL in
theorem run_setFunctions_standing (source : String) {s : Session (EmbeddedEngine L)}
    (hs : s.engine = standing globals keys feature functions) :
    (Session.setFunctions [source]).run s
      = ((compile (found L globals).1 source).toOption.isSome,
        ⟨s.sceneId, 1, standing globals keys feature
          ⟨[(compile (found L globals).1 source).toOption]⟩⟩) := by
  rw [run_setFunctions, hs, List.all_cons, List.all_nil, Bool.and_true]
  rfl

end

/-- A styler between the runs of cases that have left something. -/
structure Rests (l : Leftover) (s : Styler (Session (EmbeddedEngine L))) : Prop where
  zoom : s.cache.zoom = l.zoom
  engine : ∃ functions, s.backend.engine = standing (sceneTree l.globals) s.cache none functions

theorem rests_new (hL : L.ScopeLaws) (tileSize : Float) :
    Rests .nothing (Styler.new (Session.new (new : EmbeddedEngine L)) tileSize) :=
  ⟨rfl, .empty, (standing_new hL).symm⟩

/-- Whether a source compiles does not hang on the library. -/
theorem isSome_compile (library : L.Script) (source : String) :
    (compile library source).toOption.isSome = Engine.compiles (new : EmbeddedEngine L) source := by
  have hnew : Engine.compiles (new : EmbeddedEngine L) source
      = (compile L.noScript source).toOption.isSome := by
    unfold Engine.compiles
    rw [run_setFunctions, List.all_cons, List.all_nil, Bool.and_true]
    rfl
  rw [hnew, compile, compile]
  rcases L.compile (scriptText source) <;> rfl

/-- The engine that the question of a case is asked of, if the case names everything. -/
def asking (L : EmbeddedLanguage) (c : Case) : EmbeddedEngine L :=
  standing c.sceneGlobals (c.keys .empty) (some c.feature)
    ⟨[(compile (found L c.sceneGlobals).1 c.source).toOption]⟩

namespace Rests

variable {l : Leftover} {s : Styler (Session (EmbeddedEngine L))}

theorem built (hL : L.ScopeLaws) (h : Rests l s) (c : Case) :
    c.built s.backend = (Engine.compiles (new : EmbeddedEngine L) c.source,
      ⟨s.backend.sceneId, 1, standing (c.under l).sceneGlobals s.cache none
        ⟨[(compile (found L (c.under l).sceneGlobals).1 c.source).toOption]⟩⟩) := by
  rcases h.engine with ⟨functions, hengine⟩
  unfold Case.built
  rw [hengine, run_installGlobals_standing hL, ← Case.sceneGlobals_under,
    run_setFunctions_standing (c.under l).sceneGlobals s.cache none functions c.source rfl,
    isSome_compile]

/-- The question of a case is asked of an engine that hangs on nothing but the case and what it
    finds. -/
theorem asked (hL : L.ScopeLaws) (h : Rests l s) (c : Case) :
    c.asked s.cache (c.built s.backend).2 = ⟨s.backend.sceneId, 1, asking L (c.under l)⟩ := by
  unfold Case.asked asking
  rw [h.built hL, shown_standing hL, c.keys_under h.zoom]
  rfl

/-- What a run leaves, if its question leaves alone what scripts share. -/
theorem run (hL : L.ScopeLaws) (h : Rests l s) {c : Case}
    (hq : (c.built s.backend).1 = true →
      LeavesShared (c.asked s.cache (c.built s.backend).2).engine c.key.question) :
    Rests (c.leave (Engine.compiles (new : EmbeddedEngine L)) l) (c.run.run s).2 := by
  have hasked := h.asked hL c
  have hbuilt := h.built hL c
  -- A source that does not compile leaves the globals of its case, and nothing else.
  by_cases hcompiles : Engine.compiles (new : EmbeddedEngine L) c.source = true
  · have hfst : (c.built s.backend).1 = true := by rw [hbuilt, hcompiles]
    have hleft := hq hfst
    have hpending : PendingOnStack (c.asked s.cache (c.built s.backend).2).engine := by
      rw [hasked]
      exact fun _ hp => absurd hp List.not_mem_nil
    rcases Case.run_of_compiled hfst (hleft.ask hL.rewinds hpending) with ⟨_, hrun⟩
    rw [hrun]
    refine ⟨?_, ⟨[(compile (found L (c.under l).sceneGlobals).1 c.source).toOption]⟩, ?_⟩
    · change c.zoom.or s.cache.zoom
        = if Engine.compiles (new : EmbeddedEngine L) c.source then c.zoom.or l.zoom else _
      rw [hcompiles, if_pos rfl, h.zoom]
    · dsimp only
      rw [hbuilt, shown_standing hL, run_setFeature_standing hL]
      rfl
  · rw [Case.run_of_not_compiled (by rw [hbuilt]; exact eq_false_of_ne_true hcompiles)]
    refine ⟨?_, ⟨[(compile (found L (c.under l).sceneGlobals).1 c.source).toOption]⟩, ?_⟩
    · change s.cache.zoom
        = if Engine.compiles (new : EmbeddedEngine L) c.source then c.zoom.or l.zoom else l.zoom
      rw [if_neg hcompiles, h.zoom]
    · dsimp only
      rw [hbuilt]
      rfl

/-- What a run comes to hangs on nothing but the case and what it finds. -/
theorem run_eq (hL : L.ScopeLaws) (h : Rests l s) {m : Leftover}
    {t : Styler (Session (EmbeddedEngine L))} (h' : Rests m t) {c d : Case}
    (hcd : d.under m = c.under l) : (d.run.run t).1 = (c.run.run s).1 := by
  have hsource : (d.under m).source = (c.under l).source := by rw [hcd]
  have hkey : (d.under m).key = (c.under l).key := by rw [hcd]
  rw [Case.source_under, Case.source_under] at hsource
  refine Case.run_fst_eq hkey ?_ fun _ => ?_
  · rw [h.built hL, h'.built hL, hsource]
  · rw [h.asked hL, h'.asked hL, hcd, Engine.run_ask, Engine.run_ask]

end Rests

end EmbeddedEngine

end MapStyling
