import SceneConvert.Proofs.Survey.Outcome
import SceneConvert.Scene.Finish

/-!
# SceneConvert.Proofs.Run.Reports

What is reported, and when.

* `aside_commit`: a change says nothing, moves nowhere and does not halt the conversion.
* `location_apply`: a directive leaves the state at its place.
* `diagnostics_apply`: a directive reports the problems that its survey comes to, at its place, and nothing
  else.
-/

namespace SceneConvert

variable {α : Type}

def Problem.reports (source : Path) (line : Nat) (ps : List Problem) : List Diagnostic :=
  ps.map fun p => p.diagnostic source line

namespace State

theorem diagnostics_note (s : State α) (n : Note) :
    (s.note n).diagnostics = s.diagnostics ++ n.diagnostic?.toList := by
  simp only [diagnostics, Journal.diagnostics, note, Array.toList_push, List.filterMap_append]
  cases n <;> rfl

@[simp] theorem diagnostics_remark (s : State α) (r : Remark) :
    (s.remark r).diagnostics = s.diagnostics := by
  simp [remark, diagnostics_note, Note.diagnostic?]

theorem diagnostics_reportProblem (s : State α) (p : Problem) :
    (s.reportProblem p).diagnostics ≠ [] := by
  simp [reportProblem, diagnostics_note, Note.diagnostic?]

theorem diagnostics_remarkAll (rs : List Remark) (s : State α) :
    (rs.foldl remark s).diagnostics = s.diagnostics := by
  induction rs generalizing s with
  | nil => rfl
  | cons r rs ih => rw [List.foldl_cons, ih, diagnostics_remark]

theorem location_remarkAll (rs : List Remark) (s : State α) :
    (rs.foldl remark s).location = s.location := by
  induction rs generalizing s with
  | nil => rfl
  | cons r rs ih => exact ih (s.remark r)

/-- The reports of problems at the place of the last directive. -/
def reports (s : State α) (ps : List Problem) : List Diagnostic :=
  Problem.reports s.location.1 s.location.2 ps

theorem location_record (s : State α) (x : Finding) : (s.record x).location = s.location := by
  cases x <;> rfl

theorem diagnostics_record (s : State α) (x : Finding) :
    (s.record x).diagnostics = s.diagnostics ++ s.reports x.problem?.toList := by
  cases x with
  | remark r => exact (diagnostics_remark s r).trans (List.append_nil _).symm
  | problem p => exact diagnostics_note s _
  | spectrum p => exact (List.append_nil _).symm

theorem location_recordAll (items : List Finding) (s : State α) :
    (items.foldl record s).location = s.location := by
  induction items generalizing s with
  | nil => rfl
  | cons x items ih => rw [List.foldl_cons, ih, location_record]

theorem diagnostics_recordAll (items : List Finding) (s : State α) :
    (items.foldl record s).diagnostics =
      s.diagnostics ++ s.reports (items.filterMap Finding.problem?) := by
  induction items generalizing s with
  | nil => exact (List.append_nil _).symm
  | cons x items ih =>
    rw [List.foldl_cons, ih, diagnostics_record, List.append_assoc, reports, reports, reports,
      location_record, Problem.reports, Problem.reports, Problem.reports, ← List.map_append,
      List.filterMap_cons]
    cases x.problem? <;> rfl

/-! ## Changes -/

/-- What no change touches: what was said, the place, and whether the conversion was halted. -/
def aside (s : State α) : Journal × (Path × Nat) × Bool := (s.journal, s.location, s.halted)

theorem aside_emitAll (fs : List (Fragment α)) (s : State α) :
    (s.emitAll fs).aside = s.aside := by
  induction fs generalizing s with
  | nil => rfl
  | cons f fs ih => exact ih (s.emit f)

theorem aside_writeSettings (options : Options) (settings : List (SettingKey × Int)) (s : State α) :
    (s.writeSettings options settings).aside = s.aside := by
  unfold writeSettings
  split
  · rfl
  · induction settings generalizing s with
    | nil => rfl
    | cons setting settings ih => exact ih (s.write _)

theorem aside_pop (s : State α) : s.pop.aside = s.aside := by
  unfold pop
  split <;> rfl

theorem aside_writeCamera (s : State α) : s.writeCamera.aside = s.aside := by
  unfold writeCamera
  split <;> rfl

theorem journal_writeCamera (s : State α) : s.writeCamera.journal = s.journal :=
  congrArg Prod.fst (aside_writeCamera s)

theorem halted_finish (s : State α) : s.finish.halted = s.halted := by
  unfold finish
  split
  · rfl
  · refine (congrArg (fun a => a.2.2) (aside_writeCamera s.closeObject)).trans ?_
    unfold closeObject
    split <;> rfl

variable [Scalar α]

theorem aside_drawRecords (records : List (Placed α)) (s : State α) :
    (s.drawRecords records).aside = s.aside := by
  have draw (t : Transform α) (s : State α) :
      (records.foldl (fun s p => s.drawEntity (p.at_ (t * p.binding.transform))) s).aside =
        s.aside := by
    induction records generalizing s with
    | nil => rfl
    | cons p records ih => exact ih (s.drawEntity (p.at_ (t * p.binding.transform)))
  exact draw _ s

theorem aside_addShape (shape : Shape) (s : State α) : (s.addShape shape).aside = s.aside := by
  unfold addShape
  dsimp only
  split <;> rfl

theorem aside_addPlan (plan : ShapePlan) (s : State α) : (s.addPlan plan).aside = s.aside := by
  cases plan <;> exact aside_addShape _ _

theorem aside_commit (options : Options) (s : State α) (c : Change α) :
    (c.commit options s).aside = s.aside := by
  cases c with
  | film width height => exact aside_writeSettings options _ _
  | setting key value => exact aside_writeSettings options _ s
  | closeScope => exact aside_pop s
  | endObject => exact aside_pop s
  | drawObject records => exact aside_drawRecords _ s
  | freshMaterial m => cases m <;> rfl
  | texture name fragments => exact aside_emitAll fragments s
  | light l => exact aside_emitAll _ _
  | emission c => cases c <;> rfl
  | shape plan => exact aside_addPlan plan s
  | _ => rfl

theorem journal_commit (options : Options) (s : State α) (c : Change α) :
    (c.commit options s).journal = s.journal := congrArg Prod.fst (aside_commit options s c)

theorem halted_commit (options : Options) (s : State α) (c : Change α) :
    (c.commit options s).halted = s.halted := congrArg (fun a => a.2.2) (aside_commit options s c)

theorem location_commit (options : Options) (s : State α) (c : Change α) :
    (c.commit options s).location = s.location := congrArg (fun a => a.2.1) (aside_commit options s c)

/-! ## Directives -/

theorem diagnostics_conclude (options : Options) (result : Except Refusal (Verdict α)) (s : State α) :
    (s.conclude options result).diagnostics =
      s.diagnostics ++ s.reports (Survey.flaw? result).toList := by
  match result with
  | .error (.problem p) => exact diagnostics_note s _
  | .error .overflow => exact (List.append_nil _).symm
  | .ok v =>
    let behind := v.afterwards.foldl remark (v.change.commit options s)
    have hsaid : behind.diagnostics = s.diagnostics :=
      (diagnostics_remarkAll _ _).trans (congrArg Journal.diagnostics (journal_commit options s _))
    have hplace : behind.location = s.location :=
      (location_remarkAll _ _).trans (location_commit options s _)
    simp only [State.conclude, Survey.flaw?]
    cases v.problem with
    | none => exact hsaid.trans (List.append_nil _).symm
    | some p =>
      change (behind.note (.report (p.diagnostic behind.location.1 behind.location.2))).diagnostics = _
      rw [diagnostics_note, hsaid, hplace]
      rfl

theorem location_conclude (options : Options) (result : Except Refusal (Verdict α)) (s : State α) :
    (s.conclude options result).location = s.location := by
  match result with
  | .error (.problem _) | .error .overflow => rfl
  | .ok v =>
    have hsaid : (v.afterwards.foldl remark (v.change.commit options s)).location = s.location :=
      (location_remarkAll _ _).trans (location_commit options s _)
    simp only [State.conclude]
    cases v.problem <;> exact hsaid

theorem location_apply (ctx : Context) (source : Path) (s : State α) (st : Statement) :
    (s.apply ctx source st).location = (source, st.line) := by
  rw [apply_eq_conclude, location_conclude, location_recordAll]
  rfl

theorem diagnostics_apply (ctx : Context) (source : Path) (s : State α) (st : Statement) :
    (s.apply ctx source st).diagnostics =
      s.diagnostics ++
        Problem.reports source st.line (Survey.problems (s.survey ctx source st)) := by
  rw [apply_eq_conclude, diagnostics_conclude, diagnostics_recordAll, reports, reports,
    location_recordAll, List.append_assoc, Problem.reports, Problem.reports, ← List.map_append]
  rfl

end State

end SceneConvert
