import SceneConvert.Proofs.Document.LeftOut
import SceneConvert.Proofs.Run.Abreast
import SceneConvert.Proofs.Run.Avoids
import SceneConvert.Proofs.Run.Skipping

/-!
# SceneConvert.Proofs.Run.Projection

What the switches for the form of a scene and for its camera take out of a conversion.

* `Verdict.ofStatement_skipping_world`, `Verdict.ofStatement_skipping_camera`: what directives come to
  does not depend on these switches, but for cameras.
* `Accord.steady_unsetting`, `Accord.steady_cameraless`: so the conversions keep abreast, the second one
  without render settings or without a camera.
* `State.apply_camera`: the place of a camera is named, whatever the camera is.
* `Conversion.Projects`, `LosesCameraReports`: what is left of the output and of the diagnostics.
* `Conversion.skipping_projects`: the conversions with a switch turned on are what is left of the one
  without it.
-/

namespace SceneConvert

variable {α : Type}

theorem Context.parallel_skipping {ctx : Context} (hlog : ctx.log = none) (w : Omission) :
    ctx.Parallel (ctx.skipping w) :=
  ⟨rfl, rfl, rfl, hlog, hlog, ctx.options.singleFile_skipping w, ctx.options.collapseLists_skipping w,
    ctx.options.skipRepeatedIncludes_skipping w⟩

theorem Context.mainDepth_skipping (ctx : Context) (w : Omission) :
    (ctx.skipping w).mainDepth ≤ ctx.mainDepth := by
  cases hworld : (ctx.skipping w).options.skipWorld with
  | true => simp [Context.mainDepth, hworld]
  | false =>
    have hoff : ctx.options.skipWorld ≠ true := fun hoff => by
      rw [Context.skipping_options, Options.skipWorld_skipping w hoff] at hworld
      cases hworld
    simp [Context.mainDepth, hworld, hoff]

namespace Verdict

variable [Scalar α] {ctx : Context} {s : State α}

theorem ofStatement_skipping_world (source : Path) (st : Statement) :
    ofStatement (ctx.skipping .world) s source st = ofStatement ctx s source st := by
  unfold ofStatement
  cases Action.ofWord st.word <;> rfl

theorem ofStatement_skipping_camera (source : Path) {st : Statement}
    (hst : Action.ofWord st.word ≠ .camera) :
    ofStatement (ctx.skipping .camera) s source st = ofStatement ctx s source st := by
  unfold ofStatement
  cases ha : Action.ofWord st.word
  case camera => exact absurd ha hst
  all_goals rfl

end Verdict

/-! ## Without render settings -/

section

variable [Scalar α] {ctx : Context} {s s' : State α}

theorem State.Abreast.survey_unsetting (hlog : ctx.log = none) (h : Abreast Accord.unsetting s s')
    (source : Path) (st : Statement) :
    s'.survey (ctx.skipping .world) source st = s.survey ctx source st := by
  rw [← h.survey hlog source fun _ => h.agree.camera, State.survey, State.survey,
    Verdict.ofStatement_skipping_world]

theorem Accord.steady_unsetting (hlog : ctx.log = none) :
    (Accord.unsetting : Accord α).Steady ctx (ctx.skipping .world) where
  parallel := ctx.parallel_skipping hlog .world
  depth := ctx.mainDepth_skipping .world
  meshes := rfl
  camera := rfl
  apply source st h := h.apply (Bool.or_true _).symm (h.survey_unsetting hlog source st)
    (Accord.admits_survey fun _ _ => rfl)

end

/-! ## Without a camera -/

/-- The same entries and meshes, and no camera. -/
def Accord.cameraless : Accord α := .identical fun _ k' => k' = none

theorem Survey.camera_goesOn (kind : String) (cameraToWorld : Transform α) (f : Findings) :
    ((camera kind cameraToWorld).outcome f).1 ≠ .error .overflow := by
  unfold camera
  split
  · unfold perspective number number? look remark
    simp only [bind_assoc, pure_bind, outcome_bind, outcome_parameters]
    split
    · nofun
    · simp only [outcome_bind, outcome_parameters]
      split
      · split <;>
          simp only [outcome_bind, outcome_say, outcome_parameters, outcome_pure] <;> nofun
      · simp only [outcome_bind, outcome_parameters, outcome_pure]
        nofun
  · nofun

theorem Verdict.outcome_camera [Scalar α] (ctx : Context) (s : State α) {st : Statement} {kind : String}
    (hkind : st.text? = some kind) (f : Findings) :
    ∃ k p rs g, (camera ctx s st).outcome f = (.ok ⟨.camera k, p, rs⟩, g) ∧
      (ctx.options.skipCamera = true → k = none ∧ p = none ∧ g = f) := by
  unfold camera
  rw [Survey.outcome_bind, st.outcome_text, hkind]
  cases hskip : ctx.options.skipCamera with
  | true => exact ⟨none, none, [], f, rfl, fun _ => ⟨rfl, rfl, rfl⟩⟩
  | false =>
    have hgoesOn := Survey.camera_goesOn kind s.graphics.transform.inverse f
    dsimp only
    rw [if_neg (by decide), Survey.outcome_bind, Survey.outcome_attempt]
    rcases h : (Survey.camera kind s.graphics.transform.inverse).outcome f with ⟨(p | _) | c, g⟩
    · exact ⟨none, some p, [], g, rfl, nofun⟩
    · exact absurd (congrArg Prod.fst h) hgoesOn
    · exact ⟨some c, none, _, _, rfl, nofun⟩

namespace State

variable [Scalar α] {ctx : Context} {s s' : State α} {source : Path} {st : Statement}

/-- A camera of some kind is never refused. Where cameras are left out, nothing is found. -/
theorem survey_camera (ctx : Context) (source : Path) (hst : Action.ofWord st.word = .camera)
    (hkind : st.text?.isSome = true) (s : State α) :
    ∃ k p rs g, s.survey ctx source st = (.ok ⟨.camera k, p, rs⟩, g) ∧ g.Colorless ∧
      (ctx.options.skipCamera = true →
        k = none ∧ p = none ∧ g = .start st.parameters s.counters.spectrum) := by
  obtain ⟨kind, hkind⟩ := Option.isSome_iff_exists.1 hkind
  obtain ⟨k, p, rs, g, hcamera, hskip⟩ := Verdict.outcome_camera ctx (s.moveTo source st.line) hkind
    (.start st.parameters s.counters.spectrum)
  have hcolorless : g.Colorless := by
    have hleads : (s.site ctx source st).Leads .plain .nothing
        (Verdict.camera ctx (s.moveTo source st.line) st) (fun _ => .plain)
        (s.site ctx source st).sound := Site.leads_cameraVerdict
    have hrespects := hleads.respects (s.tells_start ctx source st) fun _ => Findings.colorless_start _ _
    rw [hcamera] at hrespects
    exact (hrespects rfl).2
  refine ⟨k, p, rs, g, ?_, hcolorless, hskip⟩
  unfold survey Verdict.ofStatement
  rw [hst]
  exact hcamera

theorem survey_camera_nameless (hst : Action.ofWord st.word = .camera) (hkind : st.text? = none)
    (ctx : Context) (s : State α) :
    s.survey ctx source st = (.error (.problem (.textExpected st.word)),
      .start st.parameters s.counters.spectrum) := by
  unfold survey Verdict.ofStatement
  rw [hst]
  dsimp only
  rw [Verdict.camera, Survey.outcome_bind, st.outcome_text, hkind]

namespace Abreast

/-- Directives come to the same, unless they are cameras of some kind. -/
theorem survey_cameraless (hlog : ctx.log = none) (h : Abreast Accord.cameraless s s')
    (hst : ¬(Action.ofWord st.word = .camera ∧ st.text?.isSome = true)) :
    s'.survey (ctx.skipping .camera) source st = s.survey ctx source st := by
  by_cases ha : Action.ofWord st.word = .camera
  · have hcounters : s'.counters = s.counters := h.eq State.counters fun _ => rfl
    have hkind : st.text? = none := by simpa [ha] using hst
    rw [survey_camera_nameless ha hkind, survey_camera_nameless ha hkind, hcounters]
  · rw [← h.survey hlog source fun hcamera => absurd hcamera ha, State.survey, State.survey,
      Verdict.ofStatement_skipping_camera source ha]

end Abreast

/-- Of a camera, its place, the camera itself and things to say are left behind. -/
theorem apply_camera (ctx : Context) (source : Path) (hst : Action.ofWord st.word = .camera)
    (hkind : st.text?.isSome = true) (s : State α) :
    ∃ k j, s.apply ctx source st =
        { (s.moveTo source st.line).nameSystem "camera" s.graphics.transform.inverse with
          camera := k, journal := j } ∧
      (ctx.options.skipCamera = true → k = s.camera) := by
  obtain ⟨k, p, rs, g, hsurvey, hcolorless, hskip⟩ :=
    survey_camera ctx source hst hkind s
  obtain ⟨j, hj⟩ := recordAll_of_colorless (s.moveTo source st.line)
    fun p hp => hcolorless p (Array.mem_toList_iff.1 hp)
  obtain ⟨j', hj'⟩ := conclude_ok ctx.options { s.moveTo source st.line with journal := j }
    ⟨.camera k, p, rs⟩
  refine ⟨k <|> s.camera, j', ?_, fun h => ?_⟩
  · rw [apply_eq_conclude, hsurvey, hj, hj']
    rfl
  · obtain ⟨rfl, -, -⟩ := hskip h
    rfl

namespace Abreast

theorem apply_cameraless (hlog : ctx.log = none) (h : Abreast Accord.cameraless s s') (source : Path)
    (st : Statement) :
    Abreast Accord.cameraless (s.apply ctx source st) (s'.apply (ctx.skipping .camera) source st) := by
  by_cases hst : Action.ofWord st.word = .camera ∧ st.text?.isSome = true
  · obtain ⟨hst, hkind⟩ := hst
    obtain ⟨k, j, hoff, -⟩ := apply_camera ctx source hst hkind s
    obtain ⟨k', j', hon, hskip⟩ := apply_camera (ctx.skipping .camera) source hst hkind s'
    have hnone : k' = none := (hskip rfl).trans h.agree.camera
    let aimed (s : State α) : State α :=
      { (s.moveTo source st.line).nameSystem "camera" s.graphics.transform.inverse with
        camera := k', journal := j' }
    rw [hoff, hon]
    exact ⟨congrArg aimed h.same, h.agree.page, h.agree.finished, h.agree.meshes, hnone,
      h.agree.pageDepth, h.agree.written⟩
  · have hadmits : Accord.cameraless.Admits (Survey.change (s.survey ctx source st).1) := by
      refine Accord.admits_survey fun k hk => ?_
      have hdeclared := declaredBy_change ctx source s st
      rw [hk] at hdeclared
      exact absurd hdeclared hst
    exact h.apply (Bool.or_false _).symm (h.survey_cameraless hlog hst) hadmits

end Abreast

end State

theorem Accord.steady_cameraless [Scalar α] {ctx : Context} (hlog : ctx.log = none) :
    (Accord.cameraless : Accord α).Steady ctx (ctx.skipping .camera) where
  parallel := ctx.parallel_skipping hlog .camera
  depth := ctx.mainDepth_skipping .camera
  meshes := rfl
  camera := rfl
  apply source st h := h.apply_cameraless hlog source st

namespace Moment

variable [Scalar α] {ctx : Context}

def IsCamera (m : Moment α) : Prop := ∃ st, m.event = .statement st ∧ Action.ofWord st.word = .camera

/-- What is kept of the reports of a moment: all of them, or some of those about a camera. -/
def Keeps (ctx : Context) (m : Moment α) (ds : List Diagnostic) : Prop :=
  ds = m.raised ctx ∨ m.IsCamera ∧ ds.Sublist (m.raised ctx)

/-- Where cameras are left out, only problems with cameras are not reported. -/
theorem Abreast.keeps_raised (hlog : ctx.log = none) {m m' : Moment α}
    (h : m.Abreast Accord.cameraless m') :
    m.Keeps ctx (m'.raised (ctx.skipping .camera)) := by
  by_cases hm : ∃ st, m.event = .statement st ∧
      Action.ofWord st.word = .camera ∧ st.text?.isSome = true
  · obtain ⟨st, hevent, hst, hkind⟩ := hm
    obtain ⟨k, p, rs, g, hsurvey, -, hskip⟩ :=
      State.survey_camera (ctx.skipping .camera) m'.source hst hkind m'.state
    obtain ⟨-, rfl, rfl⟩ := hskip rfl
    have hnone : m'.raised (ctx.skipping .camera) = [] := by
      have hevent' : m'.event = .statement st := h.event.trans hevent
      have hother : Action.ofWord st.word ≠ .include_ := by simp [hst]
      simp only [Moment.raised, hevent', if_neg hother, hsurvey]
      rfl
    exact .inr ⟨⟨st, hevent, hst⟩, hnone ▸ List.nil_sublist _⟩
  · refine .inl (h.raised (ctx.parallel_skipping hlog .camera) fun st hevent => ?_)
    have hst : ¬(Action.ofWord st.word = .camera ∧ st.text?.isSome = true) :=
      fun hst => hm ⟨st, hevent, hst⟩
    rw [h.state.survey_cameraless hlog hst]

end Moment

/-! ## The end of the scene -/

namespace State

theorem output_writeCamera (s : State α) :
    CameraBehind s.page.toList s.writeCamera.page.toList ∧ s.writeCamera.finished = s.finished ∧
      s.writeCamera.meshes = s.meshes ∧ s.written.toList ⊆ s.writeCamera.written.toList := by
  unfold writeCamera
  split
  · exact ⟨.inl rfl, rfl, rfl, List.Subset.refl _⟩
  · rename_i k _
    exact ⟨.inr ⟨k, s.aspect k, by simp [emit, write]⟩, rfl, rfl, by simp [emit, write]⟩

/-- At the end of the scene only the camera is missing where there is none. -/
structure Cameraless (s s' : State α) : Prop where
  other : ∀ e ∈ s'.page.toList, e.isCamera = false
  page : CameraBehind s'.page.toList s.page.toList
  finished : List.Forall₂ (fun p p' => p'.file = p.file ∧ p'.entries = p.entries) s.finished.toList
    s'.finished.toList
  meshes : s'.meshes = s.meshes
  halted : s'.halted = s.halted
  written : ∀ w' ∈ s'.written.toList, ∃ w ∈ s.written.toList,
    w'.depth ≤ w.depth ∧ w.entry.hasBody = w'.entry.hasBody

theorem Abreast.finish_cameraless {s s' : State α} (h : Abreast Accord.cameraless s s')
    (hend : s.halted = false) :
    Cameraless s.finish s'.finish := by
  have hclosed := h.closeObject
  have hend' : s'.halted = false := (h.eq State.halted fun _ => rfl).trans hend
  have hcamera : s'.closeObject.camera = none := hclosed.agree.camera
  have hfinish : s.finish = s.closeObject.writeCamera := by simp [State.finish, hend]
  have hfinish' : s'.finish = s'.closeObject := by simp [State.finish, hend', writeCamera, hcamera]
  have hpage : s'.closeObject.page = s.closeObject.page := Array.toList_inj.1 hclosed.agree.page.1
  have hother : ∀ e ∈ s'.closeObject.page.toList, e.isCamera = false := by
    rw [hpage]
    exact hclosed.agree.page.2 fun k hk => Option.some_ne_none k hk
  have hmeshes : s'.closeObject.meshes = s.closeObject.meshes := Array.toList_inj.1 hclosed.agree.meshes
  obtain ⟨hwrites, hfinished, hkept, hgrown⟩ := s.closeObject.output_writeCamera
  rw [hfinish, hfinish']
  have hpages := hclosed.agree.finished.imp fun _ _ hp => And.intro hp.1 hp.2.1
  refine ⟨hother, hpage ▸ hwrites, hfinished ▸ hpages, hmeshes.trans hkept.symm, ?_, ?_⟩
  · rw [← hfinish, ← hfinish', halted_finish, halted_finish, hend, hend']
  · intro w' hw'
    obtain ⟨w, hw, hdepth⟩ := hclosed.agree.written w' hw'
    exact ⟨w, hgrown hw, hdepth⟩

end State

/-! ## Conversions -/

namespace Conversion

/-- Two conversions to files with the same paths: the texts of the main files go together by one relation,
those of the files of included ones by another. -/
def Projects (main included : String → String → Prop) (c c' : Conversion) : Prop :=
  ∃ f fs f' fs', c.files = f :: fs ∧ c'.files = f' :: fs' ∧
    f'.path = f.path ∧ main f.text f'.text ∧
    List.Forall₂ (fun g g' => g'.path = g.path ∧ included g.text g'.text) fs fs'

/-- Diagnostics of a conversion, and what remains of them when some of those about cameras are not
reported. -/
def LosesCameraReports (ctx : Context) (scene : Scene) (ds ds' : List Diagnostic) : Prop :=
  ∃ (ms : List (Moment Float32)) (t : State Float32) (kept : List (List Diagnostic)),
    scene.Passes ctx ms t ∧ List.Forall₂ (Moment.Keeps ctx) ms kept ∧
    ds = ms.flatMap (Moment.raised ctx) ++ t.raisedAtEnd ∧ ds' = kept.flatten ++ t.raisedAtEnd

variable {ctx : Context} {scene : Scene} {s : State Float32} {c : Conversion}

/-- Without the form of a scene, its lines stand one level higher, and the render settings are not there.
All else is the same. -/
theorem projects_unsetting (hlog : ctx.log = none) (hworld : ctx.options.skipWorld = false)
    (hspelled : ∀ page ∈ s.pages ctx, ∀ e ∈ page.entries, e.Spelled Unbroken)
    (hs : State.ofScene ctx scene = .ok s) (hc : ending ctx s = .ok c) :
    ∃ c', ofScene (ctx.skipping .world) scene = .ok (.ok c') ∧
      Projects (Unwrapped ctx.options.indent) Unset c c' ∧
      c'.meshes = c.meshes ∧ c'.diagnostics = c.diagnostics := by
  obtain ⟨-, rfl⟩ := ending_eq_ok.1 hc
  obtain ⟨s', hs', habreast, hdiagnostics⟩ := State.Abreast.ofScene (Accord.steady_unsetting hlog)
    (fun h => h) (fun source st h => by rw [h.survey_unsetting hlog source st]) hs
  have hindent : (ctx.skipping .world).options.indent = ctx.options.indent := rfl
  have hending := ending_of_shallower hindent (habreast.eq State.halted fun _ => rfl)
    habreast.agree.written hc
  refine ⟨ofState (ctx.skipping .world) s', ?_, ⟨_, _, _, _, rfl, rfl, rfl, ?_, ?_⟩,
    habreast.agree.meshes, hdiagnostics⟩
  · rw [ofScene, hs', Except.map, hending]
  · have hpage : s'.page.toList = s.page.toList.filter fun e => !e.isSetting := habreast.agree.page
    have hmain : mainText ctx s.page.toList = fileText ctx.options.indent true s.page.toList := by
      rw [mainText, hworld]
      rfl
    dsimp only
    rw [hmain, hpage]
    exact unwrapped_fileText (hspelled _ List.mem_cons_self) ctx.options.indent
  · refine List.forall₂_map_left_iff.2 (List.forall₂_map_right_iff.2 ?_)
    have hfinished := (List.forall₂_and_left s.finished.toList s'.finished.toList).2
      ⟨fun page hpage => hspelled page (List.mem_cons_of_mem _ hpage), habreast.agree.finished⟩
    refine hfinished.imp fun page page' hpages => ⟨hpages.2.1, ?_⟩
    obtain ⟨hpage, -, hentries⟩ := hpages
    have hunset := unset_fileText hpage ctx.options.indent
    rwa [← hentries] at hunset

/-- Where cameras are left out, there is none at the end of the scene, and less is said about them. All
else is the same. -/
theorem projects_cameraless (hlog : ctx.log = none)
    (hspelled : ∀ page ∈ s.pages ctx, ∀ e ∈ page.entries, e.Spelled Unbroken)
    (hs : State.ofScene ctx scene = .ok s) (hc : ending ctx s = .ok c) :
    ∃ c', ofScene (ctx.skipping .camera) scene = .ok (.ok c') ∧
      Projects (Uncamera ctx.options.indent (!ctx.options.skipWorld)) Eq c c' ∧
      c'.meshes = c.meshes ∧ LosesCameraReports ctx scene c.diagnostics c'.diagnostics := by
  have hend : s.halted = false := (stopped?_eq_none.1 (ending_eq_ok.1 hc).1).2
  obtain ⟨-, rfl⟩ := ending_eq_ok.1 hc
  obtain ⟨ms, t, hms, rfl⟩ := State.ofScene_iff_passes.1 hs
  obtain ⟨ms', t', hms', habreast, hmoments⟩ := hms.abreast (Accord.steady_cameraless hlog)
  rw [State.halted_finish] at hend
  have hfinish := habreast.finish_cameraless hend
  have hindent : (ctx.skipping .camera).options.indent = ctx.options.indent := rfl
  have hending := ending_of_shallower hindent hfinish.halted hfinish.written hc
  refine ⟨ofState (ctx.skipping .camera) t'.finish, ?_, ⟨_, _, _, _, rfl, rfl, rfl, ?_, ?_⟩,
    congrArg Array.toList hfinish.meshes, ms, t, ms'.map (Moment.raised (ctx.skipping .camera)), hms, ?_,
    hms.diagnostics, ?_⟩
  · rw [ofScene, State.ofScene_iff_passes.2 ⟨ms', t', hms', rfl⟩, Except.map, hending]
  · have hmain : ∀ e ∈ t.finish.page.toList, e.Spelled Unbroken := hspelled _ List.mem_cons_self
    have hspelled' : ∀ e ∈ t'.finish.page.toList, e.Spelled Unbroken := by
      rcases hfinish.page with hpage | ⟨k, aspect, hpage⟩
      · exact hpage ▸ hmain
      · exact fun e he => hmain e (hpage ▸ List.mem_append_left _ he)
    exact uncamera_fileText hspelled' _ _ hfinish.other hfinish.page
  · refine List.forall₂_map_left_iff.2 (List.forall₂_map_right_iff.2 ?_)
    exact hfinish.finished.imp fun page page' hpages =>
      ⟨hpages.1, congrArg (includedText ctx) hpages.2.symm⟩
  · exact List.forall₂_map_right_iff.2 (hmoments.imp fun _ _ hm => hm.keeps_raised hlog)
  · rw [← habreast.raisedAtEnd, ← List.flatMap_def]
    exact hms'.diagnostics

/-- The switches for the form of a scene and for its camera are projections. Without the form, its two
lines, one level of indentation, and the render settings are not there; the meshes and the diagnostics are
the same. Without a camera, only the line and the form at the end of the scene are not there, and some of
what is said about cameras. -/
theorem skipping_projects {options : Options} {files : FileTree} {input : Path} {scene : Scene}
    {c : Conversion} (hctx : (Context.of options files input).IsUnbroken)
    (htexts : ∀ text ∈ scene.texts (Context.of options files input), HasUnbrokenStrings text)
    (h : ofScene (Context.of options files input) scene = .ok (.ok c)) :
    (options.skipWorld = false →
      ∃ c', ofScene (Context.of (options.skipping .world) files input) scene = .ok (.ok c') ∧
        Projects (Unwrapped options.indent) Unset c c' ∧
        c'.meshes = c.meshes ∧ c'.diagnostics = c.diagnostics) ∧
    ∃ c', ofScene (Context.of (options.skipping .camera) files input) scene = .ok (.ok c') ∧
      Projects (Uncamera options.indent (!options.skipWorld)) Eq c c' ∧
      c'.meshes = c.meshes ∧
      LosesCameraReports (Context.of options files input) scene c.diagnostics c'.diagnostics := by
  have hlog : (Context.of options files input).log = none := rfl
  obtain ⟨s, hs, hc⟩ := ofScene_ok h
  have hspelled := State.unbroken_ofScene hctx htexts hs
  rw [Context.of_skipping, Context.of_skipping]
  exact ⟨fun hoff => projects_unsetting hlog hoff hspelled hs hc, projects_cameraless hlog hspelled hs hc⟩

/-- A camera of an unknown kind, one with perspective, and a render setting. Without the form of the scene
the setting is not there. Without cameras nothing is reported, and the setting stays. -/
theorem skipping_projects_perspective :
    ∃ c c' c'',
      ofScene (Context.of {} ⟨[], []⟩ ⟨"/main.pbrt"⟩)
        (.text "Camera \"fish\" Camera \"perspective\" Sampler \"s\"") = .ok (.ok c) ∧
      ofScene (Context.of (Options.skipping {} .world) ⟨[], []⟩ ⟨"/main.pbrt"⟩)
        (.text "Camera \"fish\" Camera \"perspective\" Sampler \"s\"") = .ok (.ok c') ∧
      ofScene (Context.of (Options.skipping {} .camera) ⟨[], []⟩ ⟨"/main.pbrt"⟩)
        (.text "Camera \"fish\" Camera \"perspective\" Sampler \"s\"") = .ok (.ok c'') ∧
      Projects (Unwrapped .tab) Unset c c' ∧ c'.diagnostics = c.diagnostics ∧
      Projects (Uncamera .tab true) Eq c c'' ∧ c.main? ≠ c''.main? ∧
      c''.main? = some "(scene\n\t(registry '/renderer/common/sampler/aa/count' 16)\n)\n" ∧
      c.diagnostics.length = 1 ∧ c''.diagnostics = [] := by
  let fish : Statement := ⟨1, "Camera", some (.text "fish"), .empty⟩
  let camera : Statement := ⟨1, "Camera", some (.text "perspective"), .empty⟩
  let sampler : Statement := ⟨1, "Sampler", some (.text "s"), .empty⟩
  let text := "Camera \"fish\" Camera \"perspective\" Sampler \"s\""
  let ctx := Context.of {} ⟨[], []⟩ ⟨"/main.pbrt"⟩
  let ctx' := Context.of (Options.skipping {} .camera) ⟨[], []⟩ ⟨"/main.pbrt"⟩
  let filmed (ctx : Context) : State Float32 :=
    ((State.opening ctx).apply ctx ctx.input fish).apply ctx ctx.input camera
  let s (ctx : Context) : State Float32 := ((filmed ctx).apply ctx ctx.input sampler).finish
  have hlexemes : Lexeme.ofText text =
      [⟨1, .word "Camera", []⟩, ⟨1, .quoted "fish", []⟩, ⟨1, .word "Camera", []⟩,
        ⟨1, .quoted "perspective", []⟩, ⟨1, .word "Sampler", []⟩, ⟨1, .quoted "s", []⟩] := by
    cbv
  have hevents : Event.ofText true text =
      [.statement fish, .statement camera, .statement sampler] := by
    cbv
  have hcamera : Action.ofWord "Camera" ≠ .include_ := by decide
  have hsampler : Action.ofWord "Sampler" ≠ .include_ := by decide
  have hs (ctx : Context) (hcollapse : ctx.options.collapseLists = true)
      (hfish : ((State.opening ctx : State Float32).apply ctx ctx.input fish).halted = false)
      (hfilmed : (filmed ctx).halted = false) : State.ofScene ctx (.text text) = .ok (s ctx) := by
    rw [State.ofScene, State.ofText, State.read, hcollapse, hevents, State.run_apply rfl hcamera,
      State.run_apply hfish hcamera, State.run_apply hfilmed hsampler, State.run_nil]
  have hc : ofScene ctx (.text text) = .ok (.ok (ofState ctx (s ctx))) := by
    rw [ofScene, hs ctx rfl (by decide +kernel) (by decide +kernel), Except.map,
      ending_of_narrow (by decide) (by decide +kernel)]
  have hc' : ofScene ctx' (.text text) = .ok (.ok (ofState ctx' (s ctx'))) := by
    rw [ofScene, hs ctx' rfl (by decide +kernel) (by decide +kernel), Except.map,
      ending_of_narrow (by decide) (by decide +kernel)]
  have hctx : ctx.IsUnbroken := ⟨by decide, by decide, by decide⟩
  have htexts : ∀ text' ∈ (Scene.text text).texts ctx, HasUnbrokenStrings text' := by
    have hentered (stack : List Path) : (State.opening ctx : State Float32).entered ctx ctx.input stack
        [.statement fish, .statement camera, .statement sampler] = [] :=
      State.entered_eq_nil (by simp [fish, camera, sampler, hcamera, hsampler])
    have hopening : (Scene.text text).opening ctx = (State.opening ctx : State Float32) := rfl
    have hcollapse : ctx.options.collapseLists = true := rfl
    have hunbroken : Unbroken "fish" ∧ Unbroken "perspective" ∧ Unbroken "s" := by decide
    simp only [Scene.texts, Scene.content, hopening, hcollapse, hevents, hentered]
    simpa [HasUnbrokenStrings, hlexemes] using hunbroken
  obtain ⟨hworld, c'', hc'', hprojects, -⟩ := skipping_projects hctx htexts hc
  obtain ⟨c', hon, hunwrapped, -, hdiagnostics⟩ := hworld rfl
  obtain rfl : ofState ctx' (s ctx') = c'' := Except.ok.inj (Except.ok.inj (hc'.symm.trans hc''))
  exact ⟨_, c', _, hc, hon, hc', hunwrapped, hdiagnostics, hprojects, by decide +kernel,
    by decide +kernel, by decide +kernel, by decide +kernel⟩

end Conversion

end SceneConvert
