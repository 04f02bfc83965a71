import MapStyling.Interpreters
import MapStyling.Proofs.EmbeddedEngine.Cases
import MapStyling.Proofs.Observation
import MapStyling.Proofs.WebEngine.Cases
import MapStyling.Report.Basic

/-!
# Cases among Others

What the cases that a styler has run mean for the next one.

The scripts of these cases leave alone what they share: they read what they find and assign
to nothing but what they declare. Then a run on a styler with a history is the run of
another case on a fresh styler, namely of the case that names what it finds. All that is
ever found are globals and a zoom, and only by cases that name none themselves. Features,
functions, libraries and kinds of geometry are never found, and neither is anything of a
case that names globals and a zoom.

What is asked of the languages is that variables hold what was put into them last, and
that nothing is seen of what nobody refers to. In a language of web pages this is so up to
what scripts of the allowed sources can tell apart.

The workers of a report keep their stylers from case to case. So their outcomes do hang on
how the cases are handed out to them, though on nothing but what is left of the globals and
the zoom.

## Main definitions

* `leftover`: What is left of some cases.
* `AllLeaveShared`: Cases whose scripts leave alone what they share.
* `BackendKind.Rests`: Stylers between the runs of cases.
* `Worker.after`: The worker that cases lead to.

## Theorems

* `allLeaveShared_of_lasts`: Cases whose questions are asked where an invariant holds.
* `BackendKind.Rests.run`, `BackendKind.Rests.after`: What a run leaves, and what all
  runs of a history do.
* `run_among_others`: What the run of a case comes to after others.
-/

namespace MapStyling

section

variable [Languages]

namespace BackendKind

/-- Whether a source compiles, in the language of a kind. -/
def compiles (k : BackendKind) (source : String) : Bool := Engine.compiles k.newEngine source

end BackendKind

/-- What is left of some cases, one after the other. -/
def leftover (k : BackendKind) (history : List Case) : Leftover :=
  history.foldl (Case.leave k.compiles) .nothing

/-- Whether the script of a case assigns to nothing that scripts share when the case is run, if
    it compiles. -/
def Case.LeavesShared {k : BackendKind} (S : String → Prop) (c : Case) (s : StylerOn k) : Prop :=
  (c.built s.backend).1 = true →
    k.LeavesShared S (c.asked s.cache (c.built s.backend).2).engine c.key.question

/-- Whether the scripts of some cases do so, one after the other. -/
def AllLeaveShared {k : BackendKind} (S : String → Prop) : List Case → StylerOn k → Prop
  | [], _ => True
  | c :: rest, s => c.LeavesShared S s ∧ AllLeaveShared S rest (c.run.run s).2

/-- So they do if something lasts with their sources that keeps every question from it. -/
theorem allLeaveShared_of_lasts {k : BackendKind} {S allowed : String → Prop}
    {P : k.EngineState → Prop} (hP : Engine.Lasts allowed P)
    (hleaves : ∀ e, P e → ∀ q : Question, k.LeavesShared S e q) (history : List Case) :
    ∀ {s : StylerOn k}, (∀ c ∈ history, ∀ source ∈ c.sources, allowed source) →
      P s.backend.engine → AllLeaveShared S history s := by
  induction history with
  | nil => exact fun _ _ => trivial
  | cons c rest ih =>
      intro s hs he
      have hc := hs c List.mem_cons_self
      refine ⟨fun _ => hleaves _ (c.lasts_shown hP s.cache (Case.lasts_built hP hc he)) _, ?_⟩
      exact ih (fun d hd => hs d (List.mem_cons_of_mem _ hd)) (Case.lasts_run hP hc he)

namespace BackendKind

/-- Stylers between the runs of cases that have left something. -/
def Rests (S : String → Prop) : (k : BackendKind) → Leftover → StylerOn k → Prop
  | web => WebEngine.Rests S
  | embedded => EmbeddedEngine.Rests

variable {k : BackendKind} {S : String → Prop}

theorem rests_fresh (hk : k.Settles S) : k.Rests S .nothing (StylerOn.fresh k) := by
  cases k with
  | web => exact WebEngine.rests_new S _
  | embedded => exact EmbeddedEngine.rests_new hk _

namespace Rests

variable {l : Leftover} {s : StylerOn k} {c : Case}

/-- What a run leaves. -/
theorem run (hk : k.Settles S) (h : k.Rests S l s) (hl : ∀ source ∈ l.sources, k.Allows S source)
    (hc : ∀ source ∈ c.sources, k.Allows S source) (hq : c.LeavesShared S s) :
    k.Rests S (c.leave k.compiles l) (c.run.run s).2 := by
  cases k with
  | web => exact WebEngine.Rests.run hk h hl hc hq
  | embedded => exact EmbeddedEngine.Rests.run hk h hq

/-- Cases that come to the same with what they find have the same run. -/
theorem run_eq (hk : k.Settles S) (h : k.Rests S l s) {m : Leftover} {t : StylerOn k}
    (h' : k.Rests S m t) (hl : ∀ source ∈ l.sources, k.Allows S source)
    (hm : ∀ source ∈ m.sources, k.Allows S source) {d : Case} (hcd : d.under m = c.under l)
    (hc : ∀ source ∈ c.sources, k.Allows S source)
    (hd : ∀ source ∈ d.sources, k.Allows S source) :
    (d.run.run t).1 = (c.run.run s).1 := by
  cases k with
  | web => exact WebEngine.Rests.run_eq hk h h' hl hm hcd hc hd
  | embedded => exact EmbeddedEngine.Rests.run_eq hk h h' hcd

/-- What the runs of a history leave, and that the sources in it are allowed. -/
theorem after (hk : k.Settles S) (history : List Case) : ∀ {l : Leftover} {s : StylerOn k},
    k.Rests S l s → (∀ source ∈ l.sources, k.Allows S source) →
    (∀ d ∈ history, ∀ source ∈ d.sources, k.Allows S source) → AllLeaveShared S history s →
    k.Rests S (history.foldl (Case.leave k.compiles) l) (afterCases history s) ∧
      ∀ source ∈ (history.foldl (Case.leave k.compiles) l).sources, k.Allows S source := by
  induction history with
  | nil => exact fun h hl _ _ => ⟨h, hl⟩
  | cons d history ih =>
      intro l s h hl hs hq
      have hd := hs d List.mem_cons_self
      exact ih (h.run hk hl hd hq.1) (Case.sources_left hl hd)
        (fun e he => hs e (List.mem_cons_of_mem _ he)) hq.2

end Rests

end BackendKind

namespace Worker

/-- The worker that cases lead to, one after the other. -/
def after (cases : List Case) (w : Worker) : Worker :=
  cases.foldl (fun w c => ((check c).run w).2) w

/-- The worker with a styler for each kind. -/
def ofStylers (stylers : (k : BackendKind) → StylerOn k) : Worker :=
  ⟨BackendKind.all.map fun k => ⟨k, stylers k⟩⟩

/-- A case is run on the stylers of the kinds it applies to. -/
theorem run_check (c : Case) (stylers : (k : BackendKind) → StylerOn k) :
    (check c).run (ofStylers stylers) =
      (⟨c.name, c.source, c.expect, BackendKind.all.map fun k =>
          (k, if c.appliesTo k then some (c.run.run (stylers k)).1 else none)⟩,
        ofStylers fun k => if c.appliesTo k then (c.run.run (stylers k)).2 else stylers k) := by
  have houtcome : ∀ k : BackendKind, c.outcome k (stylers k)
      = (if c.appliesTo k then some (c.run.run (stylers k)).1 else none,
        if c.appliesTo k then (c.run.run (stylers k)).2 else stylers k) := by
    intro k
    unfold Case.outcome
    split <;> rfl
  unfold check ofStylers BackendKind.all
  simp only [List.map_cons, List.map_nil, StateT.run, houtcome]

/-- Each styler of a worker has run the cases that apply to its kind. -/
theorem after_ofStylers (cases : List Case) : ∀ stylers : (k : BackendKind) → StylerOn k,
    after cases (ofStylers stylers)
      = ofStylers fun k => afterCases (cases.filter (·.appliesTo k)) (stylers k) := by
  induction cases with
  | nil => exact fun _ => rfl
  | cons c cases ih =>
      intro stylers
      change after cases ((check c).run (ofStylers stylers)).2 = _
      rw [run_check, ih]
      refine congrArg ofStylers (funext fun k => ?_)
      rw [List.filter_cons]
      split <;> rfl

end Worker

/-- The run of a case after others, on a styler of its own or in a worker, comes to what
    the case comes to on a fresh styler when it names what is left of the globals and the
    zoom. It is the run of the case itself if nothing is left that it does not name. -/
theorem run_among_others (k : BackendKind) {S : String → Prop} (hk : k.Settles S)
    (history : List Case) (c : Case)
    (h : ∀ d ∈ c :: history, ∀ source ∈ d.sources, k.Allows S source)
    (hq : AllLeaveShared S history (StylerOn.fresh k)) :
    let l := leftover k history
    let actual := (c.run.run (afterCases history (StylerOn.fresh k))).1
    actual = (c.under l).runOn k ∧
      ((c.globals ≠ [] ∨ l.globals = []) → (c.zoom ≠ none ∨ l.zoom = none) →
        actual = c.runOn k) ∧
      ∀ cases : List Case, cases.filter (·.appliesTo k) = history →
        ((Worker.check c).run (Worker.after cases Worker.fresh)).1.outcomes.lookup k
          = some (if c.appliesTo k then some ((c.under l).runOn k) else none) := by
  intro l actual
  have hc := h c List.mem_cons_self
  have hnothing : ∀ source ∈ Leftover.nothing.sources, k.Allows S source :=
    fun source hmem => absurd hmem List.not_mem_nil
  have hfresh := BackendKind.rests_fresh hk
  -- After the history the styler rests with what is left over, as a fresh one does with nothing.
  rcases BackendKind.Rests.after hk history hfresh hnothing
    (fun d hd => h d (List.mem_cons_of_mem _ hd)) hq with ⟨hrests, hleft⟩
  have hactual : actual = (c.under l).runOn k :=
    hfresh.run_eq hk hrests hnothing hleft (Case.under_nothing _).symm
      (Case.sources_under hleft hc) hc
  refine ⟨hactual, fun hglobals hzoom => ?_, fun cases hcases => ?_⟩
  · rw [hactual, Case.under_eq hglobals hzoom]
  · have hworker : Worker.fresh = Worker.ofStylers StylerOn.fresh := rfl
    rw [hworker, Worker.after_ofStylers, Worker.run_check, ← hactual]
    cases hcases
    cases k <;> rfl

end

section

open scoped Interpreters

/-- A case that names a global and asks for it. -/
def namingCase : Case where
  name := "naming"
  key := .style .textSource
  expect := "\"a\""
  backends := none
  properties := .empty
  globals := [("n", "a")]
  zoom := none
  geometry := .unknown
  source := "function () { return globals.n; }"

/-- A case that asks for the same global and names none. -/
def findingCase : Case := { namingCase with name := "finding", expect := "none", globals := [] }

theorem run_among_others_findingCase :
    (∀ k : BackendKind, k.Settles WebScript.Inert) ∧ ∀ k : BackendKind,
      AllLeaveShared WebScript.Inert [namingCase] (StylerOn.fresh k) ∧
      (findingCase.run.run (afterCases [namingCase] (StylerOn.fresh k))).1
        = ({ findingCase with globals := namingCase.globals } : Case).runOn k ∧
      (k = .embedded →
        (findingCase.run.run (afterCases [namingCase] (StylerOn.fresh k))).1 = "\"a\"" ∧
        findingCase.runOn k = "none") := by
  have hquiet : WebScript.isQuiet (WebEngine.scriptText namingCase.source) = true := by
    decide +kernel
  have hsources : namingCase.sources = [namingCase.source] := rfl
  have hsettles : ∀ k : BackendKind, k.Settles WebScript.Inert := by
    intro k
    cases k with
    | web => exact WebScript.settingLaws
    | embedded => exact EmbeddedScript.scopeLaws
  refine ⟨hsettles, fun k => ?_⟩
  have hleaves : AllLeaveShared WebScript.Inert [namingCase] (StylerOn.fresh k) := by
    cases k with
    | web =>
        refine allLeaveShared_of_lasts (k := .web) WebScript.upholds_seemsCalm.lasts
          (fun e he q => WebScript.SeemsCalm.leavesShared he q) [namingCase] ?_
          WebScript.seemsCalm_new
        intro c hc source hmem
        rw [List.mem_singleton.mp hc, hsources] at hmem
        exact List.mem_singleton.mp hmem ▸ hquiet
    | embedded =>
        exact ⟨fun _ => EmbeddedScript.leavesShared_of_local (by decide +kernel), trivial⟩
  have hallows : ∀ d ∈ [findingCase, namingCase], ∀ source ∈ d.sources,
      k.Allows WebScript.Inert source := by
    have hinert := WebScript.inert_of_quiet hquiet
    intro d hd source hmem
    have hsource : source = namingCase.source := by
      rcases List.mem_cons.mp hd with rfl | hlast
      · exact List.mem_singleton.mp hmem
      · rw [List.mem_singleton.mp hlast, hsources] at hmem
        exact List.mem_singleton.mp hmem
    cases k with
    | web => exact hsource ▸ hinert
    | embedded => trivial
  have hrun := (run_among_others k (hsettles k) [namingCase] findingCase hallows hleaves).1
  have hleft : leftover k [namingCase] = ⟨namingCase.globals, none⟩ := by
    -- Neither case has a zoom, so it does not matter whether this one compiles.
    change Leftover.mk namingCase.globals (if _ then none else none) = _
    rw [ite_self]
  rw [hleft] at hrun
  refine ⟨hleaves, hrun, fun hk => ?_⟩
  subst hk
  rw [hrun]
  constructor <;> decide +kernel

end

end MapStyling
