import SceneConvert.Proofs.Run.History
import SceneConvert.Proofs.Run.Reports
import SceneConvert.Proofs.Run.Scene

/-!
# SceneConvert.Proofs.Run.Passage

Whole conversions as the moments that they go through, and what is reported at each of them.

* `Scene.Passes`: the moments of a conversion and the state behind the last one.
* `State.ofScene_iff_passes`: every conversion has them, and ends behind them.
* `State.ofScene_single`, `Conversion.ofScene_single`: a conversion of one directive.
* `Scene.passes_series`: the moments of a conversion without inclusions.
* `Moment.raised`, `State.raisedAtEnd`: what is reported at a moment and at the end of the scene.
* `Runs.diagnostics`, `Scene.Passes.diagnostics`: nothing else is reported.
-/

namespace SceneConvert

variable {α : Type} [Scalar α] {ctx : Context} {scene : Scene}

/-- Converting the scene leads through these moments to this state, the end of the input. -/
def Scene.Passes (ctx : Context) (scene : Scene) (ms : List (Moment α)) (t : State α) : Prop :=
  ∃ text, scene.content ctx = .ok text ∧
    Runs ctx ctx.input [ctx.files.absolute ctx.input] (Event.ofText ctx.options.collapseLists text)
      (scene.opening ctx) ms t

theorem State.ofScene_iff_passes {s : State α} :
    ofScene ctx scene = .ok s ↔ ∃ ms t, scene.Passes ctx ms t ∧ s = t.finish := by
  constructor
  · intro h
    obtain ⟨text, htext, rfl⟩ := exists_read_of_ofScene h
    obtain ⟨ms, hms⟩ := exists_runs ctx ctx.input [ctx.files.absolute ctx.input]
      (Event.ofText ctx.options.collapseLists text) (scene.opening ctx : State α)
    exact ⟨ms, _, ⟨text, htext, hms⟩, rfl⟩
  · rintro ⟨ms, t, ⟨text, htext, hms⟩, rfl⟩
    rw [ofScene_eq, htext, hms.eq_run]
    rfl

theorem Scene.Passes.unique {ms ms' : List (Moment α)} {t t' : State α} (h : scene.Passes ctx ms t)
    (h' : scene.Passes ctx ms' t') : ms = ms' ∧ t = t' := by
  obtain ⟨text, htext, hruns⟩ := h
  obtain ⟨text', htext', hruns'⟩ := h'
  rw [htext] at htext'
  cases htext'
  exact hruns.unique hruns'

theorem State.ofScene_single {text : String} {st : Statement}
    (hevents : Event.ofText ctx.options.collapseLists text = [.statement st])
    (hst : Action.ofWord st.word ≠ .include_) :
    (ofScene ctx (.text text) : Except FileError (State α)) =
      .ok ((opening ctx).apply ctx ctx.input st).finish := by
  rw [ofScene, ofText, read, hevents, run_apply rfl hst, run_nil]

theorem Conversion.ofScene_single {text : String} {st : Statement}
    (hnarrow : ctx.options.indent.width ≤ Indent.maxWidth)
    (hevents : Event.ofText ctx.options.collapseLists text = [.statement st])
    (hst : Action.ofWord st.word ≠ .include_)
    (hgoesOn : ((State.opening ctx : State Float32).apply ctx ctx.input st).finish.halted = false) :
    ofScene ctx (.text text) =
      .ok (.ok (ofState ctx ((State.opening ctx).apply ctx ctx.input st).finish)) := by
  rw [ofScene, State.ofScene_single hevents hst, Except.map, ending_of_narrow hnarrow hgoesOn]

/-- The moments of directives of the input itself, one after the other. -/
def Moment.series (ctx : Context) : State α → List Statement → List (Moment α)
  | _, [] => []
  | s, st :: sts =>
    ⟨s, ctx.input, [ctx.files.absolute ctx.input], .statement st⟩ ::
      series ctx (s.apply ctx ctx.input st) sts

theorem Scene.passes_series {text : String} {sts : List Statement}
    (hevents : Event.ofText ctx.options.collapseLists text = sts.map Event.statement)
    (hsts : ∀ st ∈ sts, Action.ofWord st.word ≠ .include_)
    (hgoesOn : ∀ m ∈ Moment.series ctx (State.opening ctx : State α) sts, m.state.halted = false) :
    Passes ctx (.text text) (Moment.series ctx (State.opening ctx : State α) sts)
      (sts.foldl (fun s st => s.apply ctx ctx.input st) (State.opening ctx)) := by
  refine ⟨text, rfl, ?_⟩
  rw [hevents]
  clear hevents
  change Runs _ _ _ _ (State.opening ctx : State α) _ _
  generalize (State.opening ctx : State α) = s at hgoesOn ⊢
  induction sts generalizing s with
  | nil => exact .nil
  | cons st sts ih =>
    obtain ⟨hs, hgoesOn⟩ := List.forall_mem_cons.1 hgoesOn
    obtain ⟨hst, hsts⟩ := List.forall_mem_cons.1 hsts
    exact .tick hs (.directive hst) (ih hsts _ hgoesOn)

/-! ## Reports -/

/-- What is reported at a moment. -/
def Moment.raised (ctx : Context) (m : Moment α) : List Diagnostic :=
  match m.event with
  | .fault f => [f.problem.diagnostic m.source f.line]
  | .statement st =>
    if Action.ofWord st.word = .include_ then
      match Inclusion.ofStatement ctx m.stack (m.state.moveTo m.source st.line) m.source st with
      | .error p => [p.diagnostic m.source st.line]
      | .ok _ => []
    else Problem.reports m.source st.line (Survey.problems (m.state.survey ctx m.source st))

namespace State

omit [Scalar α] in
theorem diagnostics_mention (s : State α) (path : Path) (output : Option Path) :
    (s.mention path output).diagnostics = s.diagnostics := by
  cases output <;> exact diagnostics_remark s (.includeRepeated path)

omit [Scalar α] in
theorem diagnostics_enterFile (ctx : Context) (s : State α) (file : IncludedFile) :
    (s.enterFile ctx file).2.diagnostics = s.diagnostics := by
  have hremark := diagnostics_remark s (.including file.path)
  unfold enterFile
  dsimp only
  split <;> exact hremark

omit [Scalar α] in
theorem diagnostics_leaveFile (s before : State α) (file : IncludedFile) (output : Option Path) :
    (s.leaveFile before file output).diagnostics = s.diagnostics := by
  cases output <;> rfl

end State

theorem Moment.diagnostics_behind (m : Moment α) :
    (m.behind ctx).diagnostics = m.state.diagnostics ++ m.raised ctx := by
  unfold behind raised
  cases m.event with
  | fault f => exact State.diagnostics_note m.state _
  | statement st =>
    by_cases hst : Action.ofWord st.word = .include_
    · simp only [if_pos hst]
      rcases Inclusion.ofStatement ctx m.stack (m.state.moveTo m.source st.line) m.source st with
        p | (⟨path, output⟩ | file)
      · exact State.diagnostics_note (m.state.moveTo m.source st.line) _
      · exact (State.diagnostics_mention _ _ _).trans (List.append_nil _).symm
      · exact (State.diagnostics_enterFile _ _ _).trans (List.append_nil _).symm
    · simp only [if_neg hst]
      exact State.diagnostics_apply ctx m.source m.state st

theorem Runs.diagnostics {source : Path} {stack : List Path} {events : List Event} {s t : State α}
    {ms : List (Moment α)} (h : Runs ctx source stack events s ms t) :
    t.diagnostics = s.diagnostics ++ ms.flatMap (Moment.raised ctx) := by
  have hfollows : Follows ctx State.diagnostics ms s.diagnostics t.diagnostics :=
    h.follows State.diagnostics_leaveFile
  clear h
  generalize s.diagnostics = ds, t.diagnostics = es at hfollows ⊢
  induction hfollows with
  | nil => simp
  | cons _ ih => rw [ih, Moment.diagnostics_behind, List.flatMap_cons, List.append_assoc]

/-- What is reported at the end of the scene: an object that is still being defined. -/
def State.raisedAtEnd (s : State α) : List Diagnostic :=
  if s.halted then []
  else s.openObject.toList.map fun o =>
    (Problem.objectOpen o.name).diagnostic s.location.1 s.location.2

omit [Scalar α] in
theorem State.diagnostics_finish (s : State α) : s.finish.diagnostics = s.diagnostics ++ s.raisedAtEnd := by
  have hcamera (t : State α) : t.writeCamera.diagnostics = t.diagnostics :=
    congrArg Journal.diagnostics (journal_writeCamera t)
  unfold finish raisedAtEnd
  split
  · exact (List.append_nil _).symm
  · rw [hcamera, closeObject]
    cases s.openObject with
    | none => exact (List.append_nil _).symm
    | some o => exact diagnostics_note _ _

/-- The diagnostics of a conversion are those of its moments, and that of its end. -/
theorem Scene.Passes.diagnostics {ms : List (Moment α)} {t : State α} (h : scene.Passes ctx ms t) :
    t.finish.diagnostics = ms.flatMap (Moment.raised ctx) ++ t.raisedAtEnd := by
  obtain ⟨text, -, hms⟩ := h
  have hopening : (scene.opening ctx : State α).diagnostics = [] := by cases scene <;> rfl
  rw [State.diagnostics_finish, hms.diagnostics, hopening, List.nil_append]

end SceneConvert
