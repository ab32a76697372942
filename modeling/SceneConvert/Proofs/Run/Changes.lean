import SceneConvert.Proofs.Run.Passage
import SceneConvert.Proofs.Survey.Reading

/-!
# SceneConvert.Proofs.Run.Changes

A run as the changes that its directives make.

* `Moment.change`: the change at a moment, if the directive is not refused.
* `Moment.Accepts`: the directive at a moment is accepted.
* `Inert`: a part of the state that only changes touch, not what is said or which file is written.
* `Inert.behind`, `Inert.passes`: what becomes of such a part at a moment and in a conversion.
-/

namespace SceneConvert

variable {α σ : Type}

/-- What is seen of a state stays the same when something is said, a spectrum is named, a file is
entered, left or mentioned, or the conversion is halted. -/
structure Inert (view : State α → σ) : Prop where
  note : ∀ s n, view (s.note n) = view s
  moveTo : ∀ s source line, view (s.moveTo source line) = view s
  spectrum : ∀ s p, view (s.record (.spectrum p)) = view s
  mention : ∀ s path output, view (s.mention path output) = view s
  enterFile : ∀ ctx s file, view (s.enterFile ctx file).2 = view s
  leaveFile : ∀ inner before file output, view (inner.leaveFile before file output) = view inner
  halt : ∀ s, view { s with halted := true } = view s

variable [Scalar α]

/-- The directive at a moment is this one, and there is no problem with it. -/
def Moment.Accepts (ctx : Context) (m : Moment α) (st : Statement) : Prop :=
  m.event = .statement st ∧ ∃ v, (m.state.survey ctx m.source st).1 = .ok v ∧ v.problem = none

/-- The change that a directive makes. There is none at a fault or an inclusion. -/
def Moment.change (ctx : Context) (m : Moment α) : Change α :=
  match m.event with
  | .fault _ => .nothing
  | .statement st =>
    if Action.ofWord st.word = .include_ then .nothing
    else Survey.change (m.state.survey ctx m.source st).1

theorem Moment.change_of_survey {ctx : Context} {m : Moment α} {st : Statement} {v : Verdict α}
    (hevent : m.event = .statement st) (hst : Action.ofWord st.word ≠ .include_)
    (hv : (m.state.survey ctx m.source st).1 = .ok v) : m.change ctx = v.change := by
  unfold change
  rw [hevent]
  dsimp only
  rw [if_neg hst, hv]
  rfl

section

variable {ctx : Context} {m : Moment α} {st : Statement}
variable {result : Except Problem (Change α × Option Problem)}
variable (h : Verdict.Reads st.parameters.value?
  (Verdict.ofStatement ctx (m.state.moveTo m.source st.line) m.source st) result)

include h

theorem Moment.survey_of_reads :
    (m.state.survey ctx m.source st).1.map (fun v => (v.change, v.problem)) =
      result.mapError Refusal.problem := h.reads _ rfl

theorem Moment.change_of_reads (hevent : m.event = .statement st)
    (hst : Action.ofWord st.word ≠ .include_) :
    m.change ctx = (result.toOption.map Prod.fst).getD .nothing := by
  have hsurvey := Moment.survey_of_reads h
  unfold change
  rw [hevent]
  dsimp only
  rw [if_neg hst]
  cases hv : (m.state.survey ctx m.source st).1 <;> rw [hv] at hsurvey <;> cases result <;> cases hsurvey
  · rfl
  · rfl

theorem Moment.accepts_of_reads (hevent : m.event = .statement st) :
    m.Accepts ctx st ↔ ∃ c, result = .ok (c, none) := by
  have hsurvey := Moment.survey_of_reads h
  unfold Accepts
  cases hv : (m.state.survey ctx m.source st).1 <;> rw [hv] at hsurvey <;> cases result <;> cases hsurvey
  · simp
  · simp [hevent]

end

namespace Inert

variable {view : State α → σ}

omit [Scalar α] in
theorem prod {τ : Type} {view' : State α → τ} (h : Inert view) (h' : Inert view') :
    Inert fun s => (view s, view' s) where
  note s n := Prod.ext (h.note s n) (h'.note s n)
  moveTo s source line := Prod.ext (h.moveTo s source line) (h'.moveTo s source line)
  spectrum s p := Prod.ext (h.spectrum s p) (h'.spectrum s p)
  mention s path output := Prod.ext (h.mention s path output) (h'.mention s path output)
  enterFile ctx s file := Prod.ext (h.enterFile ctx s file) (h'.enterFile ctx s file)
  leaveFile inner before file output :=
    Prod.ext (h.leaveFile inner before file output) (h'.leaveFile inner before file output)
  halt s := Prod.ext (h.halt s) (h'.halt s)

omit [Scalar α] in
theorem recordAll (h : Inert view) (items : List Finding) (s : State α) :
    view (items.foldl State.record s) = view s := by
  induction items generalizing s with
  | nil => rfl
  | cons x items ih =>
    rw [List.foldl_cons, ih]
    cases x with
    | remark r => exact h.note s _
    | problem p => exact h.note s _
    | spectrum p => exact h.spectrum s p

omit [Scalar α] in
theorem remarkAll (h : Inert view) (rs : List Remark) (s : State α) :
    view (rs.foldl State.remark s) = view s := by
  induction rs generalizing s with
  | nil => rfl
  | cons r rs ih => exact (ih _).trans (h.note s _)

theorem conclude (h : Inert view) (options : Options) (s : State α)
    (r : Except Refusal (Verdict α)) :
    view (s.conclude options r) = view ((Survey.change r).commit options s) := by
  rcases r with (p | _) | v
  · exact h.note s _
  · exact h.halt s
  · unfold State.conclude
    dsimp only
    cases v.problem with
    | none => exact h.remarkAll _ _
    | some p => exact (h.note _ _).trans (h.remarkAll _ _)

theorem behind (h : Inert view) (ctx : Context) (m : Moment α) :
    ∃ u, view u = view m.state ∧ view (m.behind ctx) = view ((m.change ctx).commit ctx.options u) := by
  unfold Moment.behind Moment.change
  cases m.event with
  | fault f => exact ⟨m.state, rfl, h.note m.state _⟩
  | statement st =>
    dsimp only
    split
    · refine ⟨m.state, rfl, ?_⟩
      have hmoved := h.moveTo m.state m.source st.line
      split
      · exact (h.note _ _).trans hmoved
      · exact (h.mention _ _ _).trans hmoved
      · exact (h.enterFile _ _ _).trans hmoved
    · rw [State.apply_eq_conclude]
      exact ⟨_, (h.recordAll _ _).trans (h.moveTo _ _ _), h.conclude _ _ _⟩

theorem follows {ctx : Context} {scene : Scene} {t : State α} {ms : List (Moment α)} (h : Inert view)
    (hpasses : scene.Passes ctx ms t) :
    Follows ctx view ms (view (State.initial ctx.input ctx.mainDepth)) (view t) := by
  obtain ⟨text, -, hruns⟩ := hpasses
  have hopening : view (scene.opening ctx) = view (State.initial ctx.input ctx.mainDepth) := by
    cases scene with
    | text text => exact h.note _ _
    | input => exact (h.note _ _).trans (h.note _ _)
  rw [← hopening]
  exact hruns.follows h.leaveFile

/-- A conversion makes of such a part what the changes of its moments make of it, one after the other. -/
theorem passes {ctx : Context} {scene : Scene} {t : State α} {ms : List (Moment α)}
    {after : Moment α → σ → σ} (h : Inert view)
    (hafter : ∀ m u, view ((m.change ctx).commit ctx.options u) = after m (view u))
    (hpasses : scene.Passes ctx ms t) :
    view t = ms.foldl (fun x m => after m x) (view (State.initial ctx.input ctx.mainDepth)) := by
  have hfollows := h.follows hpasses
  clear hpasses
  generalize view (State.initial ctx.input ctx.mainDepth) = x, view t = z at hfollows ⊢
  induction hfollows with
  | nil => rfl
  | @cons m ms z _ ih =>
    obtain ⟨u, hu, hbehind⟩ := h.behind ctx m
    rw [ih, List.foldl_cons, hbehind, hafter, hu]

end Inert

end SceneConvert
