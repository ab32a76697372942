import SceneConvert.Proofs.Run.Passage
import SceneConvert.Proofs.Run.Trace

/-!
# SceneConvert.Proofs.Run.Abreast

Two conversions of one scene that only leave different traces.

* `Context.Parallel`: their options agree on where files are found and where they go.
* `State.Abreast`: states that differ in traces that agree.
* `State.survey_traced`: what a directive comes to does not depend on the trace, unless it is a camera.
* `Accord.Steady`: conversions that keep abreast at directives.
* `Abreast.runs`, `Scene.Passes.abreast`: they do so over whole runs, moment by moment.
* `Moment.Abreast.raised`: they report the same at a moment, unless a directive comes to other problems.
* `Abreast.ofScene`: if there are no other problems, they end abreast, with the same diagnostics.
* `Conversion.ending_of_shallower`: where one conversion has room for its indentation, so has the other.
-/

namespace SceneConvert

variable {α : Type}

/-- Conversions of one scene with options that agree on where files are found and where they go. -/
structure Context.Parallel (ctx ctx' : Context) : Prop where
  files : ctx'.files = ctx.files
  includeRoot : ctx'.includeRoot = ctx.includeRoot
  input : ctx'.input = ctx.input
  log : ctx.log = none
  log' : ctx'.log = none
  singleFile : ctx'.options.singleFile = ctx.options.singleFile
  collapseLists : ctx'.options.collapseLists = ctx.options.collapseLists
  skipRepeatedIncludes : ctx'.options.skipRepeatedIncludes = ctx.options.skipRepeatedIncludes

namespace State

/-- States that differ in their traces only, which agree. -/
structure Abreast (K : Accord α) (s s' : State α) : Prop where
  same : s' = s.traced s'.trace
  agree : K.Agree s.trace s'.trace

/-- What a directive comes to does not depend on the trace. A camera asks whether there is one
already. -/
theorem survey_traced [Scalar α] {ctx : Context} (hlog : ctx.log = none) (source : Path) (s : State α)
    {τ : Trace α} {st : Statement}
    (h : Action.ofWord st.word = .camera → τ.camera.isSome = s.camera.isSome) :
    (s.traced τ).survey ctx source st = s.survey ctx source st := by
  have hbare (x : State α) : Verdict.ofStatement ctx x source st =
      Verdict.ofStatement ctx x.bare source st.lineless := (Verdict.ofStatement_bare hlog rfl x st).symm
  have hverdict : Verdict.ofStatement ctx ((s.traced τ).moveTo source st.line).bare source st.lineless =
      Verdict.ofStatement ctx (s.moveTo source st.line).bare source st.lineless := by
    have hword : st.lineless.word = st.word := rfl
    unfold Verdict.ofStatement
    rw [hword]
    cases ha : Action.ofWord st.word
    case camera =>
      have hcamera : ((s.traced τ).moveTo source st.line).bare.camera.isSome =
        (s.moveTo source st.line).bare.camera.isSome := h ha
      unfold Verdict.camera
      simp only [hcamera]
      rfl
    all_goals rfl
  unfold survey
  rw [hbare, hbare (s.moveTo source st.line), hverdict]
  rfl

namespace Abreast

variable {K : Accord α} {s s' : State α} {ctx ctx' : Context}

theorem eq {β : Type} (h : Abreast K s s') (f : State α → β) (hf : ∀ τ, f (s.traced τ) = f s) :
    f s' = f s := by
  rw [h.same]
  exact hf _

theorem of_concur (h : Abreast K s s') {op op' : State α → State α} (hop : K.Concur op op' s) :
    Abreast K (op s) (op' s') := by
  obtain ⟨xs, xs', hkeeps, hxs, hxs'⟩ := hop
  have hs : op s = (op s).traced (s.trace.addAll xs) := by
    rw [← hxs, traced_trace]
  have hs' : op' s' = (op s).traced (s'.trace.addAll xs') := by
    rw [← hxs', ← h.same]
  refine ⟨?_, ?_⟩
  · rw [hs', trace_traced]
  · rw [hs, hs', trace_traced, trace_traced]
    exact hkeeps _ _ h.agree

theorem note (h : Abreast K s s') (n : Note) : Abreast K (s.note n) (s'.note n) :=
  h.of_concur (Accord.concur_note n s)

theorem note_left (h : Abreast K s s') (n : Note) : Abreast K (s.note n) s' :=
  ⟨h.same, Accord.Keeps.notes [n] [] _ _ h.agree⟩

theorem note_right (h : Abreast K s s') (n : Note) : Abreast K s (s'.note n) :=
  ⟨congrArg (fun s : State α => s.note n) h.same, Accord.Keeps.notes [] [n] _ _ h.agree⟩

theorem reportProblem (h : Abreast K s s') (p : Problem) :
    Abreast K (s.reportProblem p) (s'.reportProblem p) :=
  h.of_concur (Accord.concur_reportProblem p s)

theorem moveTo (h : Abreast K s s') (source : Path) (line : Nat) :
    Abreast K (s.moveTo source line) (s'.moveTo source line) :=
  ⟨congrArg (fun s : State α => s.moveTo source line) h.same, h.agree⟩

theorem write (h : Abreast K s s') {e : Entry α} (he : e.IsOrdinary) :
    Abreast K (s.write e) (s'.write e) :=
  h.of_concur (Accord.concur_write he s)

theorem closeObject (h : Abreast K s s') : Abreast K s.closeObject s'.closeObject :=
  h.of_concur (Accord.concur_closeObject s)

/-! ## Included files -/

theorem inclusion (h : Abreast K s s') (hctx : ctx.Parallel ctx') (stack : List Path) (source : Path)
    (st : Statement) :
    Inclusion.ofStatement ctx' stack s' source st = Inclusion.ofStatement ctx stack s source st := by
  have hincluded : s'.included = s.included := h.eq State.included fun _ => rfl
  unfold Inclusion.ofStatement
  simp only [Context.filesFor_of_log hctx.log, Context.filesFor_of_log hctx.log', hincluded, hctx.files,
    hctx.includeRoot, hctx.skipRepeatedIncludes]

theorem mention (h : Abreast K s s') (path : Path) (output : Option Path) :
    Abreast K (s.mention path output) (s'.mention path output) := by
  cases output with
  | none => exact h.note _
  | some output => exact (h.note (.remark (.includeRepeated path))).write ⟨rfl, rfl, rfl⟩

theorem enterFile (h : Abreast K s s') (hctx : ctx.Parallel ctx') (file : IncludedFile) :
    (s'.enterFile ctx' file).1 = (s.enterFile ctx file).1 ∧
      Abreast K (s.enterFile ctx file).2 (s'.enterFile ctx' file).2 := by
  have hnote := h.note (.remark (.including file.path))
  have hbase : ctx'.inputDirectory = ctx.inputDirectory := by
    simp only [Context.inputDirectory, hctx.files, hctx.input]
  have hnames : (s'.remark (.including file.path)).outputNames =
      (s.remark (.including file.path)).outputNames := hnote.eq State.outputNames fun _ => rfl
  unfold State.enterFile
  rw [hctx.singleFile]
  split
  · exact ⟨rfl, hnote⟩
  · let entered (names : Dictionary Path Nat) (s : State α) : State α :=
      { s with outputNames := names, page := #[], pageDepth := 0 }
    refine ⟨by simp only [takeOutput, hnames, hbase], ?_, ?_⟩
    · simp only [takeOutput, hnames, hbase]
      exact congrArg (entered _) hnote.same
    · exact ⟨K.nil, hnote.agree.finished, hnote.agree.meshes, hnote.agree.camera, Nat.le_refl 0,
        hnote.agree.written⟩

/-- The pages of the including files go together still, because meshes only become more. -/
theorem leaveFile {before before' : State α} (h : Abreast K s s') (hbefore : Abreast K before before')
    (hmeshes : before.meshes.toList ⊆ s.meshes.toList)
    (hmeshes' : before'.meshes.toList ⊆ s'.meshes.toList) (file : IncludedFile) (output : Option Path) :
    Abreast K (s.leaveFile before file output) (s'.leaveFile before' file output) := by
  have hlocation : before'.location = before.location := hbefore.eq State.location fun _ => rfl
  let closed (s : State α) : State α :=
    { s with location := before.location, included := s.included.set file.key output }
  cases output with
  | none =>
    simp only [State.leaveFile, hlocation]
    exact ⟨congrArg closed h.same, h.agree⟩
  | some output =>
    let left (τ : Trace α) (s : State α) : State α :=
      { closed s with
        finished := τ.finished, page := τ.page, pageDepth := τ.pageDepth }
    let trace (s before : State α) : Trace α :=
      { s.trace with
        finished := s.finished.push ⟨output, s.page.toList⟩
        page := before.page
        pageDepth := before.pageDepth }
    have hleft : Abreast K (left (trace s before) s) (left (trace s' before') s') := by
      refine ⟨congrArg (left (trace s' before')) h.same, K.mono hmeshes hmeshes' hbefore.agree.page, ?_,
        h.agree.meshes, h.agree.camera, hbefore.agree.pageDepth, h.agree.written⟩
      simp only [left, trace, State.trace, Array.toList_push]
      exact List.rel_append h.agree.finished (.cons ⟨rfl, h.agree.page⟩ .nil)
    have hwritten := hleft.write (e := .include_ output) ⟨rfl, rfl, rfl⟩
    simp only [State.leaveFile, hlocation]
    exact hwritten

/-! ## Directives -/

variable [Scalar α]

/-- A directive comes to the same at both, unless it is a camera and one of them has one already. -/
theorem survey (hlog : ctx.log = none) (h : Abreast K s s') (source : Path) {st : Statement}
    (hcamera : Action.ofWord st.word = .camera → s'.camera = s.camera) :
    s'.survey ctx source st = s.survey ctx source st := by
  rw [h.same]
  exact survey_traced hlog source s fun hst => congrArg Option.isSome (hcamera hst)

theorem apply (h : Abreast K s s') {source : Path} {st : Statement}
    (hworld : ctx'.options.skipWorld = (ctx.options.skipWorld || K.unset))
    (hsurvey : s'.survey ctx' source st = s.survey ctx source st)
    (hadmits : K.Admits (Survey.change (s.survey ctx source st).1)) :
    Abreast K (s.apply ctx source st) (s'.apply ctx' source st) := by
  have hfound : Abreast K
      ((s.survey ctx source st).2.items.toList.foldl record (s.moveTo source st.line))
      ((s.survey ctx source st).2.items.toList.foldl record (s'.moveTo source st.line)) :=
    (h.moveTo source st.line).of_concur (.foldl _ (fun s f _ => Accord.concur_record f s) _)
  rw [apply_eq_conclude, apply_eq_conclude, hsurvey]
  exact hfound.of_concur (Accord.concur_conclude hworld hadmits _)

omit [Scalar α] in
theorem finish (h : Abreast K s s') (hcamera : s'.camera = s.camera) : Abreast K s.finish s'.finish := by
  have hhalted : s'.halted = s.halted := h.eq State.halted fun _ => rfl
  have hclosed := h.closeObject
  have hcamera' : s'.closeObject.camera = s.closeObject.camera := by
    have hclose (s : State α) : s.closeObject.camera = s.camera := by
      unfold State.closeObject
      split <;> rfl
    rw [hclose, hclose, hcamera]
  have haspect (c : Camera α) : s'.closeObject.aspect c = s.closeObject.aspect c :=
    hclosed.eq (fun s => s.aspect c) fun _ => rfl
  unfold State.finish
  rw [hhalted]
  split
  · exact h
  · unfold State.writeCamera
    rw [hcamera']
    cases hk : s.closeObject.camera with
    | none => exact hclosed
    | some k =>
      have hboth : K.camera (some k) (some k) := by
        have hagree : K.camera s.closeObject.camera s'.closeObject.camera := hclosed.agree.camera
        rwa [hcamera', hk] at hagree
      dsimp only
      rw [haspect]
      exact hclosed.of_concur (Accord.concur_aim hboth _ _)

end Abreast

/-! ## Meshes -/

section

variable [Scalar α] {ctx : Context}

omit [Scalar α] in
theorem meshes_enterFile (ctx : Context) (s : State α) (file : IncludedFile) :
    (s.enterFile ctx file).2.meshes = s.meshes := by
  unfold enterFile
  dsimp only
  split <;> rfl

theorem meshes_apply (source : Path) (s : State α) (st : Statement) :
    s.meshes.toList ⊆ (s.apply ctx source st).meshes.toList := by
  let K : Accord α := .identical fun _ _ => True
  have hadmits : K.Admits (Survey.change (s.survey ctx source st).1) :=
    Accord.admits_survey fun _ _ => trivial
  have hfound : K.Concur _ _ (s.moveTo source st.line) :=
    .foldl (s.survey ctx source st).2.items.toList (fun s f _ => Accord.concur_record f s) _
  have hconcluded : K.Concur _ _ _ :=
    Accord.concur_conclude (Bool.or_false ctx.options.skipWorld).symm hadmits
      ((s.survey ctx source st).2.items.toList.foldl record (s.moveTo source st.line))
  rw [apply_eq_conclude]
  exact List.Subset.trans hfound.meshes_subset hconcluded.meshes_subset

theorem meshes_run {source : Path} {stack : List Path} {events : List Event} (s : State α) :
    s.meshes.toList ⊆ (s.run ctx source stack events).meshes.toList := by
  have kept : Kept ctx (fun _ _ => True)
      fun _ (s t : State α) => s.meshes.toList ⊆ t.meshes.toList := by
    refine ⟨fun _ => List.Subset.refl _, fun h h' => List.Subset.trans h h', fun _ _ htick => ?_, ?_⟩
    · cases htick with
      | fault | refused => exact List.Subset.refl _
      | @repeated _ _ _ output => cases output <;> exact List.Subset.refl _
      | @directive _ st => exact meshes_apply _ _ st
    · intro source stack st file files s inner _ _ _ h
      rw [meshes_enterFile] at h
      cases ((s.moveTo source st.line).enterFile ctx file).1 <;> exact h
  exact kept.run (fun _ _ => trivial) fun _ _ _ _ => trivial

end

end State

/-! ## Runs -/

section

variable [Scalar α] {K : Accord α} {ctx ctx' : Context}

/-- Moments of two conversions at the same event. -/
structure Moment.Abreast (K : Accord α) (m m' : Moment α) : Prop where
  state : m.state.Abreast K m'.state
  source : m'.source = m.source
  stack : m'.stack = m.stack
  event : m'.event = m.event

open State

/-- Conversions that start abreast and keep so at directives. -/
structure Accord.Steady (K : Accord α) (ctx ctx' : Context) : Prop where
  parallel : ctx.Parallel ctx'
  depth : ctx'.mainDepth ≤ ctx.mainDepth
  meshes : K.meshes [] []
  camera : K.camera none none
  apply : ∀ {s s' : State α} (source : Path) (st : Statement), Abreast K s s' →
    Abreast K (s.apply ctx source st) (s'.apply ctx' source st)

theorem Tick.abreast (hK : K.Steady ctx ctx') {source : Path} {stack : List Path} {event : Event}
    {s s' t : State α} (htick : Tick ctx source stack event s t) (h : Abreast K s s') :
    ∃ t', Tick ctx' source stack event s' t' ∧ Abreast K t t' := by
  cases htick with
  | fault _ f => exact ⟨_, .fault s' f, h.note _⟩
  | @refused _ st p hst hi =>
    have hmoved := h.moveTo source st.line
    exact ⟨_, .refused hst ((hmoved.inclusion hK.parallel stack source st).trans hi), hmoved.reportProblem p⟩
  | @repeated _ st path output hst hi =>
    have hmoved := h.moveTo source st.line
    exact ⟨_, .repeated hst ((hmoved.inclusion hK.parallel stack source st).trans hi),
      hmoved.mention path output⟩
  | @directive _ st hst => exact ⟨_, .directive hst, hK.apply source st h⟩

/-- Conversions that keep abreast at directives keep abreast over whole runs. -/
theorem State.Abreast.runs (hK : K.Steady ctx ctx') {source : Path} {stack : List Path}
    {events : List Event} {s s' t : State α} {ms : List (Moment α)}
    (hruns : Runs ctx source stack events s ms t) (h : Abreast K s s') :
    ∃ ms' t', Runs ctx' source stack events s' ms' t' ∧ Abreast K t t' ∧
      List.Forall₂ (Moment.Abreast K) ms ms' := by
  induction hruns generalizing s' with
  | nil => exact ⟨[], s', .nil, h, .nil⟩
  | halted hs =>
    have hs' : s'.halted = true := (h.eq State.halted fun _ => rfl).trans hs
    exact ⟨[], s', .halted hs', h, .nil⟩
  | @tick source stack event events s t u ms hs htick hrest ih =>
    have hs' : s'.halted = false := (h.eq State.halted fun _ => rfl).trans hs
    obtain ⟨t', htick', ht⟩ := htick.abreast hK h
    obtain ⟨ms', u', hrest', hu, hms⟩ := ih ht
    exact ⟨_, u', .tick hs' htick' hrest', hu, .cons ⟨h, rfl, rfl, rfl⟩ hms⟩
  | @enter source stack st events s inner u file within ms hs hst hi hwithin hrest ihwithin ih =>
    have hs' : s'.halted = false := (h.eq State.halted fun _ => rfl).trans hs
    have hmoved := h.moveTo source st.line
    obtain ⟨houtput, hentered⟩ := hmoved.enterFile hK.parallel file
    obtain ⟨within', inner', hwithin', hinner, hmoments⟩ := ihwithin hentered
    have hgrown : (s.moveTo source st.line).meshes.toList ⊆ inner.meshes.toList := by
      rw [hwithin.eq_run]
      exact (meshes_enterFile _ _ _).symm ▸ meshes_run _
    have hgrown' : (s'.moveTo source st.line).meshes.toList ⊆ inner'.meshes.toList := by
      rw [hwithin'.eq_run]
      exact (meshes_enterFile _ _ _).symm ▸ meshes_run _
    have hleft := hinner.leaveFile hmoved hgrown hgrown' file
      ((s.moveTo source st.line).enterFile ctx file).1
    obtain ⟨ms', u', hrest', hu, hms⟩ := ih hleft
    rw [← hK.parallel.collapseLists] at hwithin'
    rw [← houtput] at hrest'
    refine ⟨_, u', .enter hs' hst ((hmoved.inclusion hK.parallel stack source st).trans hi) hwithin' hrest',
      hu, .cons ⟨h, rfl, rfl, rfl⟩ (List.rel_append hmoments hms)⟩

theorem Scene.trace_opening (ctx : Context) (scene : Scene) :
    (scene.opening ctx : State α).trace =
      ⟨#[], ctx.mainDepth, #[], #[], #[], (scene.opening ctx : State α).journal, none⟩ := by
  cases scene <;> rfl

theorem State.Abreast.opening (hK : K.Steady ctx ctx') (scene : Scene) :
    Abreast K (scene.opening ctx : State α) (scene.opening ctx') := by
  refine ⟨?_, ?_⟩
  · unfold Scene.opening State.opening
    rw [hK.parallel.input, hK.parallel.includeRoot]
    cases scene <;> rfl
  · rw [scene.trace_opening ctx, scene.trace_opening ctx']
    exact ⟨K.nil, .nil, hK.meshes, hK.camera, hK.depth, fun w' hw' => absurd hw' List.not_mem_nil⟩

theorem Scene.Passes.abreast (hK : K.Steady ctx ctx') {scene : Scene} {ms : List (Moment α)} {t : State α}
    (h : scene.Passes ctx ms t) :
    ∃ ms' t', scene.Passes ctx' ms' t' ∧ Abreast K t t' ∧ List.Forall₂ (Moment.Abreast K) ms ms' := by
  obtain ⟨text, htext, hms⟩ := h
  obtain ⟨ms', t', hms', ht, hmoments⟩ := (State.Abreast.opening hK scene).runs hK hms
  have hcontent : scene.content ctx' = scene.content ctx := by
    unfold Scene.content
    rw [hK.parallel.files, hK.parallel.input]
  rw [← hK.parallel.files, ← hK.parallel.input, ← hK.parallel.collapseLists] at hms'
  exact ⟨ms', t', ⟨text, hcontent.trans htext, hms'⟩, ht, hmoments⟩

/-! ## Reports -/

/-- The conversions report the same at a moment, unless a directive comes to other problems. -/
theorem Moment.Abreast.raised {m m' : Moment α} (h : m.Abreast K m') (hctx : ctx.Parallel ctx')
    (hproblems : ∀ st, m.event = .statement st →
      Survey.problems (m'.state.survey ctx' m.source st) =
        Survey.problems (m.state.survey ctx m.source st)) :
    m'.raised ctx' = m.raised ctx := by
  unfold Moment.raised
  rw [h.event, h.source, h.stack]
  cases hevent : m.event with
  | fault f => rfl
  | statement st =>
    have hincluded := (h.state.moveTo m.source st.line).inclusion hctx m.stack m.source st
    dsimp only
    rw [hincluded, hproblems st hevent]

omit [Scalar α] in
theorem State.Abreast.raisedAtEnd {s s' : State α} (h : Abreast K s s') :
    s'.raisedAtEnd = s.raisedAtEnd :=
  h.eq State.raisedAtEnd fun _ => rfl

/-- Conversions that come to the same problems at directives, and have the same camera, end abreast and
report the same. -/
theorem State.Abreast.ofScene (hK : K.Steady ctx ctx')
    (hcamera : ∀ {k k' : Option (Camera α)}, K.camera k k' → k' = k)
    (hproblems : ∀ {s s' : State α} (source : Path) (st : Statement), Abreast K s s' →
      Survey.problems (s'.survey ctx' source st) = Survey.problems (s.survey ctx source st))
    {scene : Scene} {s : State α} (h : ofScene ctx scene = .ok s) :
    ∃ s', State.ofScene ctx' scene = .ok s' ∧ Abreast K s s' ∧ s'.diagnostics = s.diagnostics := by
  obtain ⟨ms, t, hms, rfl⟩ := ofScene_iff_passes.1 h
  obtain ⟨ms', t', hms', ht, hmoments⟩ := hms.abreast hK
  have hraised : ms'.flatMap (Moment.raised ctx') = ms.flatMap (Moment.raised ctx) := by
    clear hms hms'
    induction hmoments with
    | nil => rw [List.flatMap_nil, List.flatMap_nil]
    | @cons m m' _ _ hm _ ih =>
      have hhere : m'.raised ctx' = m.raised ctx :=
        hm.raised hK.parallel fun st _ => hproblems m.source st hm.state
      rw [List.flatMap_cons, List.flatMap_cons, hhere, ih]
  refine ⟨t'.finish, ofScene_iff_passes.2 ⟨ms', t', hms', rfl⟩, ht.finish (hcamera ht.agree.camera), ?_⟩
  rw [hms.diagnostics, hms'.diagnostics, hraised, ht.raisedAtEnd]

end

/-! ## Results -/

theorem Conversion.ending_of_shallower {ctx ctx' : Context} {s s' : State Float32} {c : Conversion}
    (hindent : ctx'.options.indent = ctx.options.indent) (hhalted : s'.halted = s.halted)
    (hwritten : ∀ w' ∈ s'.written.toList, ∃ w ∈ s.written.toList,
      w'.depth ≤ w.depth ∧ w.entry.hasBody = w'.entry.hasBody)
    (h : ending ctx s = .ok c) : ending ctx' s' = .ok (ofState ctx' s') := by
  obtain ⟨hroom, hend⟩ := stopped?_eq_none.1 (ending_eq_ok.1 h).1
  refine ending_eq_ok.2 ⟨stopped?_eq_none.2 ⟨fun hwide w' hw' => ?_, hhalted.trans hend⟩, rfl⟩
  rw [hindent] at hwide
  obtain ⟨w, hw, hdepth, hbody⟩ := hwritten w' (Array.mem_toList_iff.2 hw')
  have hflat := hroom hwide w (Array.mem_toList_iff.1 hw)
  simp only [Writing.isIndented, Bool.or_eq_false_iff, decide_eq_false_iff_not] at hflat ⊢
  exact ⟨by omega, hbody.symm.trans hflat.2⟩

end SceneConvert
