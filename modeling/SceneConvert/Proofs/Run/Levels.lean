import SceneConvert.Proofs.Document.Strokes
import SceneConvert.Proofs.Run.History
import SceneConvert.Proofs.Run.Merge
import SceneConvert.Proofs.Run.Pages
import SceneConvert.Proofs.Run.Rejection

/-!
# SceneConvert.Proofs.Run.Levels

How deep a conversion stands in the text that it is writing, and what brings it to a halt.

* `Context.baseDepth`: the depth between two statements.
* `Moment.after`: the state behind an event, and behind the file that it enters if it enters one.
* `Moment.IsLevel`, `Runs.pageDepth`: before and behind every event the sheet of the open page stands at
  the base depth, and whole entries are written to it in between.
* `Moment.Overflows`, `Runs.halted_iff`: only an overflow in a mesh file halts a conversion.
-/

namespace SceneConvert

/-- How deep the entries of the open page stand while the files of the stack are being converted. -/
def Context.baseDepth (ctx : Context) (stack : List Path) : Nat :=
  if ctx.options.singleFile || stack.length == 1 then ctx.mainDepth else 0

namespace State

variable {α : Type} [Scalar α] (ctx : Context) (source : Path) (stack : List Path) (events : List Event)
variable (s : State α)

theorem levelled_run : Levelled (s.entered ctx source stack events) s (s.run ctx source stack events) :=
  (kept_levelled ctx).run (fun _ _ => trivial) fun _ _ _ _ => trivial

theorem pageDepth_run : (s.run ctx source stack events).pageDepth = s.pageDepth :=
  (levelled_run ctx source stack events s).1

theorem exists_page_run :
    ∃ es, (s.run ctx source stack events).page.toList = s.page.toList ++ es := by
  have hpaged : Paged _ s (s.run ctx source stack events) :=
    (kept_paged ctx).run (fun _ _ => trivial) fun _ _ _ _ => trivial
  obtain ⟨_, own, _, _, hown, _⟩ := hpaged
  exact ⟨own, hown⟩

end State

section

variable {α : Type} [Scalar α] {ctx : Context} {source : Path} {stack : List Path} {event : Event}
variable {events : List Event} {s t : State α} {ms : List (Moment α)}

theorem Tick.pageDepth (h : Tick ctx source stack event s t) : t.pageDepth = s.pageDepth := by
  obtain ⟨ws, hws⟩ := h.output
  rw [Output.writeAll_eq] at hws
  exact congrArg Output.pageDepth hws

/-- The state behind the event, and behind the whole file if the event enters one. -/
def Moment.after (ctx : Context) (m : Moment α) : State α := m.state.run ctx m.source m.stack [m.event]

/-! ## Depth -/

omit [Scalar α] in
theorem Context.pageDepth_enterFile {file : IncludedFile} (hstack : stack ≠ [])
    (hs : s.pageDepth = ctx.baseDepth stack) :
    (s.enterFile ctx file).2.pageDepth = ctx.baseDepth (file.key :: stack) := by
  have hlength : stack.length ≠ 0 := List.length_eq_zero_iff.not.2 hstack
  cases hmode : ctx.options.singleFile with
  | true =>
    simp only [baseDepth, hmode, Bool.true_or, ↓reduceIte] at hs ⊢
    simp only [State.enterFile, hmode, ↓reduceIte]
    exact hs
  | false =>
    simp only [State.enterFile, baseDepth, hmode, Bool.false_eq_true, ↓reduceIte, Bool.false_or,
      List.length_cons, Nat.add_eq_right, beq_iff_eq, hlength]

/-- Every statement begins at the base depth. -/
theorem Runs.pageDepth (h : Runs ctx source stack events s ms t) (hstack : stack ≠ [])
    (hs : s.pageDepth = ctx.baseDepth stack) : ∀ m ∈ ms, m.state.pageDepth = ctx.baseDepth m.stack := by
  induction h with
  | nil | halted => exact fun m hm => by cases hm
  | tick _ htick _ ih => exact List.forall_mem_cons.2 ⟨hs, ih hstack (htick.pageDepth.trans hs)⟩
  | @enter source stack st events s inner u file within ms _ _ _ hwithin _ ihwithin ih =>
    have hmoved : (s.moveTo source st.line).pageDepth = ctx.baseDepth stack := hs
    have hinner : State.Levelled [] ((s.moveTo source st.line).enterFile ctx file).2 inner := by
      rw [hwithin.eq_run]
      exact State.levelled_run ctx file.path _ _ _
    -- what the file writes to a page of its own is put aside when the file ends
    have hleave := (State.levelled_file hinner).1
    refine List.forall_mem_append.2 ⟨List.forall_mem_cons.2 ⟨hs, ?_⟩, ih hstack (hleave.trans hs)⟩
    exact ihwithin (List.cons_ne_nil _ _) (Context.pageDepth_enterFile hstack hmoved)

end

/-- Before and behind the event, the sheet of the open page stands at the base depth. In between, whole
entries are written to it. -/
structure Moment.IsLevel (ctx : Context) (m : Moment Float32) : Prop where
  before : m.state.pageDepth = ctx.baseDepth m.stack
  behind : (m.after ctx).pageDepth = ctx.baseDepth m.stack
  writes : ∃ es sheet sheet', (m.after ctx).page.toList = m.state.page.toList ++ es ∧
    Drawn (ctx.baseDepth m.stack) m.state.page.toList sheet ∧
    sheet.draw? (es.flatMap Entry.strokes) = some sheet' ∧
    Drawn (ctx.baseDepth m.stack) (m.after ctx).page.toList sheet'

theorem Moment.isLevel {ctx : Context} {m : Moment Float32}
    (h : m.state.pageDepth = ctx.baseDepth m.stack) : m.IsLevel ctx where
  before := h
  behind := (State.pageDepth_run _ _ _ _ _).trans h
  writes := by
    obtain ⟨es, hes⟩ := State.exists_page_run ctx m.source m.stack [m.event] m.state
    obtain ⟨sheet, hsheet⟩ := exists_drawn (ctx.baseDepth m.stack) m.state.page.toList
    obtain ⟨sheet', hdraws, hsheet'⟩ := hsheet.append es
    exact ⟨es, sheet, sheet', hes, hsheet, hdraws, hes ▸ hsheet'⟩

/-! ## Halting -/

section

variable {α : Type} [Scalar α]

/-- The directive is not judged, because a number in a mesh file is beyond the range of counts. -/
def Moment.Overflows (ctx : Context) (m : Moment α) : Prop :=
  ∃ st, m.event = .statement st ∧ (m.state.survey ctx m.source st).1 = .error .overflow

/-- Some word of the directive names a mesh file with such a number in its header. -/
def Moment.NamesOverflow (ctx : Context) (m : Moment α) : Prop :=
  ∃ st w journal, m.event = .statement st ∧ w ∈ st.words ∧
    let file := ctx.files.fileFor m.source w ctx.includeRoot
    readPlyInfo (ctx.filesFor journal file) file = .error .overflow

theorem Moment.Overflows.namesOverflow {ctx : Context} {m : Moment α} (h : m.Overflows ctx) :
    m.NamesOverflow ctx := by
  obtain ⟨st, hst, hsurvey⟩ := h
  obtain ⟨w, hw, journal, hread⟩ := State.overflows_of_survey _ _ _ _ hsurvey
  exact ⟨st, w, journal, hst, hw, hread⟩

namespace State

omit [Scalar α] in
theorem halted_recordAll (items : List Finding) (s : State α) :
    (items.foldl record s).halted = s.halted := by
  induction items generalizing s with
  | nil => rfl
  | cons x items ih =>
    rw [List.foldl_cons, ih]
    cases x <;> rfl

theorem halted_conclude (options : Options) (result : Except Refusal (Verdict α)) (s : State α) :
    (s.conclude options result).halted = true ↔ s.halted = true ∨ result = .error .overflow := by
  match result with
  | .error (.problem p) => simp [conclude, reportProblem, note]
  | .error .overflow => simp [conclude]
  | .ok v =>
    obtain ⟨j, hj⟩ := conclude_ok options s v
    rw [hj]
    simp [halted_commit]

theorem halted_apply (ctx : Context) (source : Path) (s : State α) (st : Statement) :
    (s.apply ctx source st).halted = true ↔
      s.halted = true ∨ (s.survey ctx source st).1 = .error .overflow := by
  rw [apply_eq_conclude, halted_conclude, halted_recordAll]
  rfl

omit [Scalar α] in
theorem halted_leaveFile (s before : State α) (file : IncludedFile) (output : Option Path) :
    (s.leaveFile before file output).halted = s.halted := by
  cases output <;> rfl

theorem survey_include {ctx : Context} {source : Path} {s : State α} {st : Statement}
    (h : Action.ofWord st.word = .include_) : (s.survey ctx source st).1 ≠ .error .overflow := by
  simp [survey, Verdict.ofStatement, h, Verdict.accept]

end State

theorem Tick.halted {ctx : Context} {source : Path} {stack : List Path} {event : Event} {s t : State α}
    (h : Tick ctx source stack event s t) :
    t.halted = true ↔ s.halted = true ∨ (⟨s, source, stack, event⟩ : Moment α).Overflows ctx := by
  have include_ {st : Statement} (hst : Action.ofWord st.word = .include_) :
      ¬(⟨s, source, stack, .statement st⟩ : Moment α).Overflows ctx := by
    rintro ⟨_, ⟨⟩, hsurvey⟩
    exact State.survey_include hst hsurvey
  cases h with
  | fault _ f =>
    have hfault : ¬(⟨s, source, stack, .fault f⟩ : Moment α).Overflows ctx := by
      rintro ⟨_, ⟨⟩, _⟩
    simp [hfault, State.note]
  | refused hst => simp [include_ hst, State.reportProblem, State.note, State.moveTo]
  | @repeated _ st path output hst =>
    cases output <;>
      simp [include_ hst, State.mention, State.remark, State.note, State.write, State.moveTo]
  | @directive _ st hst =>
    rw [State.halted_apply]
    refine or_congr_right ⟨fun hsurvey => ⟨st, rfl, hsurvey⟩, ?_⟩
    rintro ⟨_, ⟨⟩, hsurvey⟩
    exact hsurvey

/-- A run is halted where a directive overflows, and nowhere else. -/
theorem Runs.halted_iff {ctx : Context} {source : Path} {stack : List Path} {events : List Event}
    {s t : State α} {ms : List (Moment α)} (h : Runs ctx source stack events s ms t) :
    t.halted = true ↔ s.halted = true ∨ ∃ m ∈ ms, m.Overflows ctx := by
  induction h with
  | nil | halted => simp
  | tick _ htick _ ih =>
    rw [ih, htick.halted, or_assoc]
    simp
  | @enter source stack st events s inner u file within ms _ hst _ _ _ ihwithin ih =>
    have hentered : ((s.moveTo source st.line).enterFile ctx file).2.halted = s.halted := by
      unfold State.enterFile
      dsimp only
      split <;> rfl
    have hinclude : ¬(⟨s, source, stack, .statement st⟩ : Moment α).Overflows ctx := by
      rintro ⟨_, ⟨⟩, hsurvey⟩
      exact State.survey_include hst hsurvey
    rw [ih, State.halted_leaveFile, ihwithin, hentered, or_assoc]
    simp [hinclude, or_and_right, exists_or]

end

end SceneConvert
