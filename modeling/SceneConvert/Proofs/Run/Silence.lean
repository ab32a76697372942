import SceneConvert.Proofs.Run.Entered
import SceneConvert.Proofs.Run.Reports
import SceneConvert.Proofs.Survey.Facts

/-!
# SceneConvert.Proofs.Run.Silence

What is known when nothing was reported.

* `silent_apply`: a directive without a report behind it met no problem, and there was none before it.
* `Tick.silent`: the same for every event that enters no file.
-/

namespace SceneConvert

namespace State

variable {α : Type}

/-- At the end of a scene an object that is still open is reported. -/
theorem silent_finish {s : State α} (h : s.finish.diagnostics = []) : s.diagnostics = [] := by
  unfold finish at h
  split at h
  · exact h
  · rw [diagnostics, journal_writeCamera] at h
    unfold closeObject at h
    split at h
    · exact h
    · exact absurd h (diagnostics_reportProblem _ _)

variable [Scalar α]

theorem silent_apply {ctx : Context} {source : Path} {s : State α} {st : Statement}
    (h : (s.apply ctx source st).diagnostics = []) :
    s.diagnostics = [] ∧ ¬(s.survey ctx source st).2.HasProblem ∧
      ∀ v, (s.survey ctx source st).1 = .ok v → v.problem = none := by
  rw [diagnostics_apply] at h
  obtain ⟨hs, hreports⟩ := List.append_eq_nil_iff.1 h
  obtain ⟨hitems, hflaw⟩ := List.append_eq_nil_iff.1 (List.map_eq_nil_iff.1 hreports)
  refine ⟨hs, fun ⟨p, hp⟩ => ?_, fun v hv => ?_⟩
  · have hnone := List.filterMap_eq_nil_iff.1 hitems _ (Array.mem_toList_iff.2 hp)
    cases hnone
  · rw [hv] at hflaw
    exact Option.toList_eq_nil_iff.1 hflaw

end State

theorem Tick.silent {α : Type} [Scalar α] {ctx : Context} {source : Path} {stack : List Path}
    {event : Event} {s t : State α} (htick : Tick ctx source stack event s t)
    (h : t.diagnostics = []) : s.diagnostics = [] := by
  cases htick with
  | fault f =>
    rw [State.diagnostics_note] at h
    exact (List.append_eq_nil_iff.1 h).1
  | refused => exact absurd h (State.diagnostics_reportProblem _ _)
  | @repeated _ st path output _ _ =>
    have hremark := State.diagnostics_remark (s.moveTo source st.line) (.includeRepeated path)
    cases output with
    | none => exact hremark.symm.trans h
    | some output => exact hremark.symm.trans h
  | directive => exact (State.silent_apply h).1

end SceneConvert
