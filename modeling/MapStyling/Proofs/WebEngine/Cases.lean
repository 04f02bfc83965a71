import MapStyling.Proofs.Cases
import MapStyling.Proofs.WebEngine.Making
import MapStyling.Proofs.WebEngine.Questions

/-!
# Cases on Engines of Web Scripts

What an engine is between the runs of cases whose scripts leave alone what they share.

Nobody can tell such an engine from one to which little was done: the globals were
installed that were named last, and then the keys were set that were named last, and the
variable of the feature to null. Whatever else has happened is gone. Functions and features
of earlier cases are objects that nobody refers to, and what variables held before is not
to be seen. A run puts its own globals, keys and feature in place of these, so a question
is asked in a context on which only what the case finds has an influence.

## Main definitions

* `WebEngine.found`: The context after globals were installed.
* `WebEngine.keySettings`: What is set between two runs.
* `WebEngine.Rests`: Stylers between the runs of cases.
* `WebEngine.asking`: What the question of a case is asked in.

## Theorems

* `WebEngine.Rests.run`: What the run of a case leaves.
* `WebEngine.Rests.run_eq`: What the run of a case comes to.
-/

namespace MapStyling

open WebLanguage

namespace WebEngine

/-- What is set between two runs: keys that were passed on, and no feature. -/
def keySettings (keys : FilterCache) : List (String × Constant) :=
  (keys.geometry.map fun n => (geometryName, .text (Geometry.nameOfCode n))).toList ++
    (keys.zoom.map fun n => (zoomName, .integer n)).toList ++ [(featureName, .null)]

theorem mem_keySettings (keys : FilterCache) : ∀ s ∈ keySettings keys,
    s.1 ∈ variableNames ∧ s.1 ≠ globalName := by
  have hnames : ∀ name ∈ [geometryName, zoomName, featureName],
      name ∈ variableNames ∧ name ≠ globalName := by
    decide
  have hsublist : ((keySettings keys).map Prod.fst).Sublist
      [geometryName, zoomName, featureName] := by
    rcases keys with ⟨_ | zoom, _ | geometry⟩
    · exact .cons _ (.cons _ (.refl _))
    · exact .cons_cons _ (.cons _ (.refl _))
    · exact .cons _ (.refl _)
    · exact .refl _
  exact fun s hs => hnames s.1 (hsublist.subset (List.mem_map_of_mem hs))

theorem insert_zoom (keys : FilterCache) (n : Int) :
    Entries.insert zoomName (.integer n) (keySettings keys) = keySettings (keys.set .zoom n) := by
  rcases keys with ⟨_ | zoom, _ | geometry⟩ <;> rfl

theorem insert_geometry (keys : FilterCache) (n : Int) :
    Entries.insert geometryName (.text (Geometry.nameOfCode n)) (keySettings keys)
      = keySettings (keys.set .geometry n) := by
  rcases keys with ⟨_ | zoom, _ | geometry⟩ <;> rfl

theorem insert_feature (keys : FilterCache) :
    Entries.insert featureName .null (keySettings keys) = keySettings keys := by
  rcases keys with ⟨_ | zoom, _ | geometry⟩ <;> rfl

section

variable {L : WebLanguage} {S : String → Prop} {c : L.Context} {us vs : List L.Value}
  {cache : FilterCache} {e : WebEngine L}

/-- Binding one function, by what is made of its source. -/
theorem run_setFunctions_singleton (source : String) (s : Session (WebEngine L)) :
    (Session.setFunctions [source]).run s = (compiles source s.engine.context,
      ⟨s.sceneId, 1, ⟨((sourceValue source).run s.engine.context).2, s.engine.stack,
        ⟨[if compiles source s.engine.context then some
          ((sourceValue source).run s.engine.context).1
          else none]⟩⟩⟩) := by
  have hcompile : (tabled.compile source).run s.engine
      = (((compile source).run s.engine).1.toOption, ((compile source).run s.engine).2) := rfl
  have hbuild : ∀ e : WebEngine L, (tabled.buildAll []).run e = ([], e) := fun _ => rfl
  rcases run_compile_eq source s.engine with ⟨hfunction, hafter⟩
  rw [Engine.Tabled.run_setFunctions (T := tabled), Engine.Tabled.run_buildAll_cons,
    hcompile, hbuild,
    hfunction, hafter]
  rcases compiles source s.engine.context <;> rfl

/-- A source compiles after variables were set if it compiled before. -/
theorem compiles_settled (hL : L.SettingLaws S variableNames) (hc : L.Arises S ⟨c, us⟩)
    {source : String} (hs : S (scriptText source)) {settings : List (String × Constant)}
    (hnames : ∀ s ∈ settings, s.1 ∈ variableNames) :
    compiles source (L.settled settings c) = compiles source c := by
  induction settings with
  | nil => rfl
  | cons s rest ih =>
      have hset := hL.bisimulation_set (hnames s List.mem_cons_self)
        ((hc.settled rest).constant s.2) (mem_concat _ _)
      exact (compiles_eq hset hs (.refl _ _)).trans
        (ih fun t ht => hnames t (List.mem_cons_of_mem _ ht))

/-- What is set between two runs, after one setting more. -/
theorem alike_insert (hL : L.SettingLaws S variableNames) (hc : L.Arises S ⟨c, us⟩) {n : String}
    (hn : n ∈ variableNames) (k : Constant) (keys : FilterCache) :
    Alike S ⟨L.withVariable n k.value (L.settled (keySettings keys) c), us⟩
      ⟨L.settled (Entries.insert n k (keySettings keys)) c, us⟩ :=
  hL.settled_insert hn hc k fun s hs => (mem_keySettings keys s hs).1

/-- The zoom of a case goes to its place among what is set. -/
theorem alike_zoomed (hL : L.SettingLaws S variableNames) (hc : L.Arises S ⟨c, us⟩)
    (h : Alike S ⟨L.settled (keySettings cache) c, us⟩ ⟨e.context, vs⟩) (case : Case) :
    Alike S ⟨L.settled (keySettings ⟨case.zoom.or cache.zoom, cache.geometry⟩) c, us⟩
      ⟨(case.zoomed cache e).context, vs⟩ := by
  unfold Case.zoomed Case.passed
  rcases case.zoom with _ | level
  · exact h
  · dsimp only
    split
    · next hcached =>
      have hsame : cache.set .zoom level = cache := FilterCache.set_of_get? hcached
      change Alike S ⟨L.settled (keySettings (cache.set .zoom level)) c, us⟩ _
      rwa [hsame]
    · have hinsert := alike_insert hL hc mem_variableNames.2.2.1 (.integer level) cache
      rw [insert_zoom] at hinsert
      exact hinsert.symm.trans (h.assign (made_constant S (.integer level)))

/-- So does its geometry, below the feature that was set before. -/
theorem alike_passed_geometry (hL : L.SettingLaws S variableNames) (hc : L.Arises S ⟨c, us⟩)
    {a : StateM L.Context L.Value} (ha : Made S a) (keys : FilterCache)
    (hkeys : keys.geometry = cache.geometry)
    (h : Alike S ⟨L.assign featureName a (L.settled (keySettings keys) c), us⟩ ⟨e.context, vs⟩)
    (n : Int) :
    Alike S ⟨L.assign featureName a (L.settled (keySettings (keys.set .geometry n)) c), us⟩
      ⟨(Case.passed .geometry n cache e).context, vs⟩ := by
  unfold Case.passed
  split
  · next hcached =>
    have hsame : keys.set .geometry n = keys := FilterCache.set_of_get? (hkeys.trans hcached)
    rwa [hsame]
  · have hne : geometryName ≠ featureName := by decide
    have hcomm := hL.assign_comm mem_variableNames.2.2.2 mem_variableNames.1 hne
      (hc.settled (keySettings keys)) (.text (Geometry.nameOfCode n)) ha
    have hinsert := alike_insert hL hc mem_variableNames.2.2.2 (.text (Geometry.nameOfCode n)) keys
    rw [insert_geometry] at hinsert
    exact ((hcomm.trans (hinsert.assign ha)).symm).trans
      (h.assign (made_constant S (.text (Geometry.nameOfCode n))))

/-- What a case shows, as settings. -/
theorem alike_shown (hL : L.SettingLaws S variableNames) (hc : L.Arises S ⟨c, us⟩)
    (h : Alike S ⟨L.settled (keySettings cache) c, us⟩ ⟨e.context, vs⟩) (case : Case) :
    Alike S ⟨L.assign featureName (featureObject case.feature)
        (L.settled (keySettings (case.keys cache)) c), us⟩
      ⟨(case.shown cache e).context, vs⟩ := by
  have hzoomed := (alike_zoomed hL hc h case).assign (n := featureName)
    (made_featureObject case.feature)
  exact alike_passed_geometry hL hc (made_featureObject case.feature)
    ⟨case.zoom.or cache.zoom, cache.geometry⟩ rfl hzoomed case.geometry.code

/-- Nothing but the context changes when a case is shown. -/
theorem shown_eq (case : Case) (cache : FilterCache) (e : WebEngine L) :
    case.shown cache e = { e with context := (case.shown cache e).context } := by
  have hpassed : ∀ (key : FilterKey) (n : Int) (e : WebEngine L),
      Case.passed key n cache e = { e with context := (Case.passed key n cache e).context } := by
    intro key n e
    unfold Case.passed
    split
    · rfl
    · cases key <;> rfl
  have hzoomed : case.zoomed cache e = { e with context := (case.zoomed cache e).context } := by
    unfold Case.zoomed
    rcases case.zoom with _ | level
    · rfl
    · exact hpassed _ _ _
  have hset : ∀ (f : Feature) (e : WebEngine L),
      ((Engine.setFeature (some f) : StateM (WebEngine L) Unit).run e).2
        = { e with context := L.assign featureName (featureObject f) e.context } := fun _ _ => rfl
  unfold Case.shown
  rw [hset, hpassed, hzoomed]

/-- When the feature is taken away, the settings are left, and the function is not seen. -/
theorem alike_cleared (hL : L.SettingLaws S variableNames) (hc : L.Arises S ⟨c, []⟩)
    {a b : StateM L.Context L.Value} (ha : Made S a) (hb : Made S b) {keys : FilterCache}
    {c' : L.Context}
    (h : Alike S ⟨L.assign featureName b (L.settled (keySettings keys) (a.run c).2), []⟩ ⟨c', []⟩) :
    Alike S ⟨L.settled (keySettings keys) c, []⟩ ⟨L.withVariable featureName L.null c', []⟩ := by
  have hmade : L.Arises S ⟨(a.run c).2, []⟩ :=
    (hc.made ha).select fun _ hv => absurd hv List.not_mem_nil
  have hunseen := (hL.alike_made hc ha).settled (keySettings keys)
  have hset := hL.assign_assign mem_variableNames.1 (hmade.settled (keySettings keys)) hb
    (made_constant S .null)
  have hinsert := alike_insert hL hmade mem_variableNames.1 .null keys
  rw [insert_feature] at hinsert
  exact hunseen.trans ((hset.trans hinsert).symm.trans (h.assign (made_constant S .null)))

/-- The context after globals were installed at the start. -/
def found (L : WebLanguage) (globals : Option SceneNode) : L.Context :=
  match Seeding.tree? globals with
  | none => L.initial
  | some node => L.assign globalName (treeValue node) L.initial

theorem arises_initial (S : String → Prop) : L.Arises S ⟨L.initial, []⟩ := .of_common .refl

theorem arises_found {globals : Option SceneNode}
    (hs : ∀ s ∈ (globals.map SceneNode.functionTexts).getD [], S (scriptText s)) :
    L.Arises S ⟨found L globals, []⟩ := by
  unfold found
  rcases htree : Seeding.tree? globals with _ | node
  · exact arises_initial S
  · rw [Seeding.eq_of_tree? htree] at hs
    exact (arises_initial S).assign (made_treeValue hs)

/-- Globals that are installed take the place of those that were there, if there are any. -/
theorem alike_installed (hL : L.SettingLaws S variableNames) {globals others : Option SceneNode}
    (hs : ∀ s ∈ (globals.map SceneNode.functionTexts).getD [], S (scriptText s))
    (hs' : ∀ s ∈ (others.map SceneNode.functionTexts).getD [], S (scriptText s))
    {keys : FilterCache} (he : e.stack = .empty)
    (h : Alike S ⟨L.settled (keySettings keys) (found L globals), []⟩ ⟨e.context, []⟩) :
    let e' := ((Seeding.installGlobals others).run e).2
    Alike S ⟨L.settled (keySettings keys)
        (found L (if (Seeding.tree? others).isSome then others else globals)), []⟩
      ⟨e'.context, []⟩ ∧ e' = { e with context := e'.context } := by
  rcases htree : Seeding.tree? others with _ | node
  · rw [Engine.run_installGlobals_of_none htree]
    exact ⟨h, rfl⟩
  · rw [run_installGlobals_of_tree htree he]
    rw [Seeding.eq_of_tree? htree] at hs'
    have hnode := made_treeValue (L := L) hs'
    have hbelow := hL.assign_settled mem_variableNames.2.1 (arises_found hs) hnode
      (mem_keySettings keys)
    -- The tree that was there is under the new one.
    have hover : Alike S ⟨L.assign globalName (treeValue node) (found L globals), []⟩
        ⟨found L others, []⟩ := by
      unfold found
      rw [htree]
      rcases htree' : Seeding.tree? globals with _ | old
      · exact .refl _
      · rw [Seeding.eq_of_tree? htree'] at hs
        exact hL.assign_assign mem_variableNames.2.1 (arises_initial S) (made_treeValue hs) hnode
    rw [Option.isSome_some, if_pos rfl]
    exact ⟨((hbelow.trans (hover.settled _)).symm).trans (h.assign hnode), rfl⟩

/-- A source compiles where globals were installed if it compiles on a new engine. -/
theorem compiles_found (hL : L.SettingLaws S variableNames) {globals : Option SceneNode}
    (hs : ∀ s ∈ (globals.map SceneNode.functionTexts).getD [], S (scriptText s)) {source : String}
    (hsource : S (scriptText source)) (keys : FilterCache) :
    compiles source (L.settled (keySettings keys) (found L globals))
      = Engine.compiles (new : WebEngine L) source := by
  have hnew : Engine.compiles (new : WebEngine L) source
      = compiles source (L.settled [(featureName, .null)] L.initial) :=
    congrArg Prod.fst (run_setFunctions_singleton source (Session.new new))
  rw [hnew, compiles_settled hL (arises_found hs) hsource fun s hmem =>
    (mem_keySettings keys s hmem).1,
    compiles_settled hL (arises_initial S) hsource
      fun s hmem => List.mem_singleton.mp hmem ▸ mem_variableNames.1]
  unfold found
  rcases htree : Seeding.tree? globals with _ | node
  · rfl
  · rw [Seeding.eq_of_tree? htree] at hs
    have hmade := made_treeValue (L := L) hs
    have hset := hL.bisimulation_set mem_variableNames.2.1 ((arises_initial S).made hmade)
      (mem_concat _ _)
    exact (compiles_eq hset hsource (.refl _ _)).trans
      (compiles_eq Alike.bisimulation.makes hsource (hL.alike_made (arises_initial S) hmade))

/-- A styler between the runs of cases that have left something. -/
structure Rests (S : String → Prop) (l : Leftover) (s : Styler (Session (WebEngine L))) : Prop where
  zoom : s.cache.zoom = l.zoom
  stack : s.backend.engine.stack = .empty
  context : Alike S ⟨L.settled (keySettings s.cache) (found L (sceneTree l.globals)), []⟩
    ⟨s.backend.engine.context, []⟩

theorem rests_new (S : String → Prop) (tileSize : Float) :
    Rests S .nothing (Styler.new (Session.new (new : WebEngine L)) tileSize) :=
  ⟨rfl, rfl, .refl _⟩

/-- The context in which the source of a case has been read, and the value of the source, if
    the case names its globals. -/
def reading (L : WebLanguage) (c : Case) : Holding L :=
  let r := (sourceValue c.source).run (found L c.sceneGlobals)
  ⟨r.2, [r.1]⟩

/-- What the question of a case is asked in, if the case names everything. -/
def asking (L : WebLanguage) (c : Case) : Holding L :=
  ⟨L.assign featureName (featureObject c.feature)
    (L.settled (keySettings (c.keys .empty)) (reading L c).context), (reading L c).values⟩

/-- An engine in a context, with a function or none. -/
def withFunction (c : L.Context) (f : Option L.Value) : WebEngine L := ⟨c, .empty, ⟨[f]⟩⟩

/-- Twins with one function. -/
theorem twins_withFunction {c c' : L.Context} {v v' : L.Value} (h : Alike S ⟨c, [v]⟩ ⟨c', [v']⟩) :
    Twins (Alike S) (withFunction c (some v)) (withFunction c' (some v')) :=
  ⟨[v], [v'], h, .nil, .cons (.some ⟨0, rfl, rfl⟩) .nil⟩

namespace Rests

variable {l : Leftover} {s : Styler (Session (WebEngine L))}

/-- The globals of a case are installed and its source is read, in a context on which nothing
    has an influence but the case and what it finds. -/
theorem built (hL : L.SettingLaws S variableNames) (h : Rests S l s)
    (hl : ∀ source ∈ l.sources, S (scriptText source)) {c : Case}
    (hc : ∀ source ∈ c.sources, S (scriptText source)) :
    ∃ c' v, c.built s.backend = (Engine.compiles (new : WebEngine L) c.source,
        ⟨s.backend.sceneId, 1, withFunction c'
          (if Engine.compiles (new : WebEngine L) c.source then some v else none)⟩) ∧
      Alike S ⟨L.settled (keySettings s.cache) (reading L (c.under l)).context,
        (reading L (c.under l)).values⟩ ⟨c', [v]⟩ ∧
      Alike S ⟨L.settled (keySettings s.cache) (found L (c.under l).sceneGlobals), []⟩
        ⟨c', []⟩ := by
  have hsource : S (scriptText c.source) := hc _ List.mem_cons_self
  have hglobals := Case.sources_left hl hc
  have hfound := arises_found (L := L) hglobals
  have hmade := made_sourceValue (L := L) hsource
  rcases alike_installed hL hl (fun _ hmem => hc _ (List.mem_cons_of_mem _ hmem)) h.stack h.context
    with ⟨hinstalled, heq⟩
  rw [← Case.sceneGlobals_under] at hinstalled
  have hread := hinstalled.made hmade
  have hcompiles : compiles c.source ((Seeding.installGlobals c.sceneGlobals).run
      s.backend.engine).2.context = Engine.compiles (new : WebEngine L) c.source :=
    (compiles_eq Alike.bisimulation.makes hsource hinstalled).trans
      (compiles_found hL hglobals hsource s.cache)
  refine ⟨_, _, ?_, (hL.made_settled hfound hmade
    fun s hs => (mem_keySettings _ s hs).1).symm.trans hread, ?_⟩
  · unfold Case.built withFunction
    rw [run_setFunctions_singleton, hcompiles, heq]
    dsimp only
    rw [h.stack]
  · -- The value of the source is held by nobody in the end.
    have hkept := hL.alike_made (hfound.settled (keySettings s.cache)) hmade
    exact hkept.trans (hread.front rfl)

/-- The question of a case is asked in a context on which nothing has an influence but the case
    and what it finds. -/
theorem asked (hL : L.SettingLaws S variableNames) (h : Rests S l s)
    (hl : ∀ source ∈ l.sources, S (scriptText source)) {c : Case}
    (hc : ∀ source ∈ c.sources, S (scriptText source))
    (hcompiles : Engine.compiles (new : WebEngine L) c.source = true) :
    ∃ c' v, (c.asked s.cache (c.built s.backend).2).engine = withFunction c' (some v) ∧
      Alike S (asking L (c.under l)) ⟨c', [v]⟩ := by
  have hmade := made_sourceValue (L := L) (hc _ List.mem_cons_self)
  rcases h.built hL hl hc with ⟨c₁, v, hbuilt, hread, -⟩
  rw [hcompiles, if_pos rfl] at hbuilt
  have hshown := alike_shown (e := withFunction c₁ (some v)) hL
    ((arises_found (Case.sources_left hl hc)).made hmade) hread c
  refine ⟨(c.shown s.cache (withFunction c₁ (some v))).context, v, ?_, ?_⟩
  · unfold Case.asked
    rw [hbuilt]
    exact shown_eq c s.cache _
  · unfold asking
    rw [c.keys_under h.zoom]
    exact hshown

/-- What a run leaves, if its question leaves alone what scripts share. -/
theorem run (hL : L.SettingLaws S variableNames) (h : Rests S l s)
    (hl : ∀ source ∈ l.sources, S (scriptText source)) {c : Case}
    (hc : ∀ source ∈ c.sources, S (scriptText source))
    (hq : (c.built s.backend).1 = true →
      LeavesShared S (c.asked s.cache (c.built s.backend).2).engine c.key.question) :
    Rests S (c.leave (Engine.compiles (new : WebEngine L)) l) (c.run.run s).2 := by
  rcases h.built hL hl hc with ⟨c₁, w, hbuilt, -, hkept⟩
  rcases c.run_run s with ⟨scale, hrun⟩
  rw [hrun]
  by_cases hcompiles : Engine.compiles (new : WebEngine L) c.source = true
  · have hfst : (c.built s.backend).1 = true := by rw [hbuilt, hcompiles]
    rcases h.asked hL hl hc hcompiles with ⟨c', v, hasked, halike⟩
    have hleft := (hq hfst).answered
    rw [hfst, if_pos rfl]
    dsimp only
    rw [run_ask_snd]
    rw [hasked] at hleft ⊢
    -- The question leaves the context as it was, and then the feature goes.
    have hafter := halike.trans hleft
    refine ⟨?_, rfl, ?_⟩
    · change c.zoom.or s.cache.zoom
        = if Engine.compiles (new : WebEngine L) c.source then c.zoom.or l.zoom else _
      rw [if_pos hcompiles, h.zoom]
    · have hcleared := alike_cleared hL (arises_found (Case.sources_left hl hc))
        (made_sourceValue (hc _ List.mem_cons_self)) (made_featureObject _)
        (hafter.select .nil)
      rw [c.keys_under h.zoom] at hcleared
      exact hcleared
  · have hfst : (c.built s.backend).1 = false := by rw [hbuilt, eq_false_of_ne_true hcompiles]
    rw [hfst, if_neg Bool.false_ne_true]
    refine ⟨?_, ?_, ?_⟩
    · change s.cache.zoom = if Engine.compiles (new : WebEngine L) c.source then _ else l.zoom
      rw [if_neg hcompiles, h.zoom]
    · rw [hbuilt]
      rfl
    · rw [hbuilt]
      exact hkept

/-- What a run comes to hangs on nothing but the case and what it finds. -/
theorem run_eq (hL : L.SettingLaws S variableNames) (h : Rests S l s) {m : Leftover}
    {t : Styler (Session (WebEngine L))} (h' : Rests S m t)
    (hl : ∀ source ∈ l.sources, S (scriptText source))
    (hm : ∀ source ∈ m.sources, S (scriptText source)) {c d : Case} (hcd : d.under m = c.under l)
    (hc : ∀ source ∈ c.sources, S (scriptText source))
    (hd : ∀ source ∈ d.sources, S (scriptText source)) :
    (d.run.run t).1 = (c.run.run s).1 := by
  have hsource : (d.under m).source = (c.under l).source := by rw [hcd]
  have hkey : (d.under m).key = (c.under l).key := by rw [hcd]
  rw [Case.source_under, Case.source_under] at hsource
  rcases h.built hL hl hc with ⟨_, _, hbuilt, -⟩
  rcases h'.built hL hm hd with ⟨_, _, hbuilt', -⟩
  refine Case.run_fst_eq hkey ?_ fun hcompiled => ?_
  · rw [hbuilt, hbuilt', hsource]
  · rw [hbuilt] at hcompiled
    rcases h.asked hL hl hc hcompiled with ⟨c₁, v, hasked, halike⟩
    rcases h'.asked hL hm hd (hsource ▸ hcompiled) with ⟨c₂, v', hasked', halike'⟩
    rw [hcd] at halike'
    have htwins := twins_withFunction (halike.symm.trans halike')
    rw [← hasked, ← hasked'] at htwins
    exact (htwins.ask Alike.bisimulation (fun _ ho => ho.allowed) c.key.question).1

end Rests

end

end WebEngine

end MapStyling
