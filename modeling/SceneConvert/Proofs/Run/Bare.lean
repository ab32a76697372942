import Mathlib.Data.List.Forall2
import SceneConvert.Proofs.Run.Silence
import SceneConvert.Proofs.Statement.Resume
import SceneConvert.Proofs.Survey.Nearby

/-!
# SceneConvert.Proofs.Run.Bare

Two states that differ in nothing that a directive looks at.

* `bare_commit`: a change does to the bare state what it does to the state.
* `Diagnostic.Alike`: diagnostics that say the same, wherever; what is found in the place of a missing
  bracket does not count.
* `State.Alike`: states with one bare state, behind the same reports.
* `Alike.apply`, `Alike.finish`: directives, in files of one directory, and the end of the scene keep
  them alike.
-/

namespace SceneConvert

namespace State

variable {α : Type}

/-! ## Changes -/

@[simp] theorem bare_write (s : State α) (e : Entry α) : (s.write e).bare = s.bare.write e := by
  simp [bare, write]

@[simp] theorem bare_emit (s : State α) (f : Fragment α) : (s.emit f).bare = s.bare.emit f :=
  bare_write s _

theorem bare_foldl {β : Type} {step : State α → β → State α}
    (h : ∀ s b, (step s b).bare = step s.bare b) (bs : List β) (s : State α) :
    (bs.foldl step s).bare = bs.foldl step s.bare := by
  induction bs generalizing s with
  | nil => rfl
  | cons b bs ih => rw [List.foldl_cons, List.foldl_cons, ih, h]

@[simp] theorem bare_emitAll (s : State α) (fs : List (Fragment α)) :
    (s.emitAll fs).bare = s.bare.emitAll fs :=
  bare_foldl bare_emit fs s

@[simp] theorem bare_drawEntity (s : State α) (p : Placed α) :
    (s.drawEntity p).bare = s.bare.drawEntity p :=
  bare_emit _ _

theorem bare_writeSettings (s : State α) (options : Options) (settings : List (SettingKey × Int)) :
    (s.writeSettings options settings).bare = s.bare.writeSettings options settings := by
  unfold writeSettings
  split
  · rfl
  · exact bare_foldl (fun s setting => bare_write s (.setting setting.1 setting.2)) settings s

theorem bare_pop (s : State α) : s.pop.bare = s.bare.pop := by
  cases h : s.saved with
  | nil =>
    have hbare : s.bare.saved = [] := h
    simp only [pop, h, hbare]
  | cons g rest =>
    have hbare : s.bare.saved = g :: rest := h
    simp only [pop, h, hbare]
    rfl

theorem bare_writeCamera (s : State α) : s.writeCamera.bare = s.bare.writeCamera := by
  cases h : s.camera with
  | none =>
    have hbare : s.bare.camera = none := h
    simp only [writeCamera, h, hbare]
  | some c =>
    have hbare : s.bare.camera = some c := h
    simp only [writeCamera, h, hbare, bare_emit, bare_write]
    rfl

variable [Scalar α]

theorem bare_drawRecords (s : State α) (records : List (Placed α)) :
    (s.drawRecords records).bare = s.bare.drawRecords records :=
  let t := s.graphics.transform
  bare_foldl (fun s p => bare_drawEntity s (p.at_ (t * p.binding.transform))) records s

@[simp] theorem bare_addShape (s : State α) (shape : Shape) :
    (s.addShape shape).bare = s.bare.addShape shape := by
  cases h : s.openObject with
  | none =>
    have hbare : s.bare.openObject = none := h
    simp only [addShape, h, hbare, bare_drawEntity]
    rfl
  | some o =>
    have hbare : s.bare.openObject = some o := h
    simp only [addShape, h, hbare]
    rfl

omit [Scalar α] in
theorem bare_addMesh (s : State α) (source : String → MeshSource) :
    (s.addMesh source).2.bare = (s.bare.addMesh source).2 :=
  bare_emit (s.take .mesh).2 _

theorem bare_addPlan (s : State α) (plan : ShapePlan) :
    (s.addPlan plan).bare = s.bare.addPlan plan := by
  let shape (t : State α) : State α := t.addShape (.mesh (s.counters.next .mesh))
  cases plan with
  | sphere radius => exact bare_addShape s _
  | inline m => exact (bare_addShape _ _).trans (congrArg shape (bare_addMesh s fun _ => .inline m))
  | existing file =>
    exact (bare_addShape _ _).trans (congrArg shape (bare_addMesh s fun _ => .existing file))
  | separate m =>
    let keep (t : State α) : State α :=
      { t with meshes := t.meshes.push ⟨meshFile (s.counters.next .mesh), m⟩ }
    exact (bare_addShape _ _).trans
      (congrArg (fun t => shape (keep t)) (bare_addMesh s fun name => .separate (meshFile name)))

/-- What a change does does not depend on what was said before, nor on where. -/
theorem bare_commit (options : Options) (s : State α) (c : Change α) :
    (c.commit options s).bare = c.commit options s.bare := by
  cases c with
  | film width height => exact bare_writeSettings _ options _
  | setting key value => exact bare_writeSettings s options _
  | closeScope => exact bare_pop s
  | endObject => exact congrArg (fun t : State α => { t with openObject := none }) (bare_pop s)
  | drawObject records => exact bare_drawRecords s _
  | freshMaterial m =>
    cases m with
    | none => rfl
    | some m =>
      exact congrArg (declareMaterial · (s.counters.next .material))
        (bare_emit ((s.take .material).2.bindMaterial _) _)
  | namedMaterial name m => exact congrArg (declareMaterial · name) (bare_emit s _)
  | texture name fragments => exact congrArg (declareTexture · name) (bare_emitAll s fragments)
  | light l => exact bare_emitAll _ _
  | emission c =>
    cases c with
    | none => rfl
    | some c => exact bare_emit _ _
  | shape plan => exact bare_addPlan s plan
  | _ => rfl

end State

/-! ## Diagnostics -/

/-- Whether a diagnostic is about a missing closing bracket. -/
def Diagnostic.MissesBracket (d : Diagnostic) : Prop :=
  ∃ p : Problem, p.missesBracket = true ∧ d.kind = p.kind ∧ d.message = p.message

/-- The diagnostics say the same, wherever they say it. What is found in the place of a missing bracket
does not count. -/
def Diagnostic.Alike (d d' : Diagnostic) : Prop :=
  d.kind = d'.kind ∧ (d.message = d'.message ∨ d.MissesBracket ∧ d'.MissesBracket)

theorem Diagnostic.Alike.refl (d : Diagnostic) : d.Alike d := ⟨rfl, .inl rfl⟩

def Problem.bare : Problem → Problem
  | bracketExpected _ => bracketUnclosed
  | p => p

theorem Problem.bare_eq {p q : Problem} (h : p.bare = q.bare) :
    p = q ∨ p.missesBracket = true ∧ q.missesBracket = true := by
  have key (p : Problem) : p.bare = p ∨ p.missesBracket = true ∧ p.bare = .bracketUnclosed := by
    cases p <;> first | exact .inl rfl | exact .inr ⟨rfl, rfl⟩
  have missing {p : Problem} (h : p = .bracketUnclosed) : p.missesBracket = true := h ▸ rfl
  rcases key p with hp | ⟨hp, hp'⟩ <;> rcases key q with hq | ⟨hq, hq'⟩
  · exact .inl (hp.symm.trans (h.trans hq))
  · exact .inr ⟨missing (hp.symm.trans (h.trans hq')), hq⟩
  · exact .inr ⟨hp, missing (hq.symm.trans (h.symm.trans hp'))⟩
  · exact .inr ⟨hp, hq⟩

theorem Problem.kind_of_missesBracket {p : Problem} (h : p.missesBracket = true) :
    p.kind = .syntactic := by
  cases p <;> first | rfl | cases h

theorem Problem.alike_of_bare {p q : Problem} (h : p.bare = q.bare) (file file' : Path)
    (line line' : Nat) : (p.diagnostic file line).Alike (q.diagnostic file' line') := by
  rcases Problem.bare_eq h with rfl | ⟨hp, hq⟩
  · exact ⟨rfl, .inl rfl⟩
  · refine ⟨?_, .inr ⟨⟨p, hp, rfl, rfl⟩, ⟨q, hq, rfl, rfl⟩⟩⟩
    exact (Problem.kind_of_missesBracket hp).trans (Problem.kind_of_missesBracket hq).symm

namespace State

variable {α : Type}

/-- The states differ in nothing that a directive looks at, and what was reported before them is
alike. -/
structure Alike (s t : State α) : Prop where
  bare : s.bare = t.bare
  diagnostics : List.Forall₂ Diagnostic.Alike s.diagnostics t.diagnostics

namespace Alike

variable {s t : State α}

theorem refl (s : State α) : Alike s s := ⟨rfl, List.forall₂_same.2 fun d _ => .refl d⟩

theorem trans_eq {s' : State α} (h : Alike s t) (hbare : s'.bare = s.bare)
    (hdiagnostics : s'.diagnostics = s.diagnostics) : Alike s' t :=
  ⟨hbare.trans h.bare, hdiagnostics ▸ h.diagnostics⟩

theorem same {β : Type} (h : Alike s t) (f : State α → β) (hf : ∀ s : State α, f s.bare = f s) :
    f s = f t := by
  rw [← hf s, h.bare, hf]

theorem halted (h : Alike s t) : s.halted = t.halted := h.same State.halted fun _ => rfl

theorem moveTo (h : Alike s t) (source source' : Path) (line line' : Nat) :
    Alike (s.moveTo source line) (t.moveTo source' line') :=
  ⟨h.bare, h.diagnostics⟩

theorem remark (h : Alike s t) (r r' : Remark) : Alike (s.remark r) (t.remark r') :=
  ⟨h.bare, by simpa using h.diagnostics⟩

theorem report (h : Alike s t) {d d' : Diagnostic} (hd : d.Alike d') :
    Alike (s.note (.report d)) (t.note (.report d')) := by
  refine ⟨h.bare, ?_⟩
  rw [diagnostics_note, diagnostics_note]
  exact List.rel_append h.diagnostics (.cons hd .nil)

theorem reportProblem (h : Alike s t) (p : Problem) : Alike (s.reportProblem p) (t.reportProblem p) :=
  h.report (Problem.alike_of_bare rfl _ _ _ _)

theorem foldl {β : Type} {step : State α → β → State α}
    (hstep : ∀ {s t}, Alike s t → ∀ b, Alike (step s b) (step t b)) (bs : List β) (h : Alike s t) :
    Alike (bs.foldl step s) (bs.foldl step t) := by
  induction bs generalizing s t with
  | nil => exact h
  | cons b bs ih => exact ih (hstep h b)

theorem record (h : Alike s t) (f : Finding) : Alike (s.record f) (t.record f) := by
  cases f with
  | remark r => exact h.remark r r
  | problem p => exact h.reportProblem p
  | spectrum p =>
    let named (s : State α) : State α := { s with counters := s.counters.add 1 .spectrum }
    let f : Fragment α := .spectrum p.name p.wavelengths p.values
    have hbare (s : State α) : ((named s).emit f).bare = (named s.bare).emit f := bare_emit (named s) f
    refine ⟨?_, h.diagnostics⟩
    exact (hbare s).trans ((congrArg (fun s : State α => (named s).emit f) h.bare).trans (hbare t).symm)

variable [Scalar α]

theorem commit (h : Alike s t) (options : Options) (c : Change α) :
    Alike (c.commit options s) (c.commit options t) := by
  refine ⟨?_, ?_⟩
  · rw [bare_commit, bare_commit, h.bare]
  · rw [State.diagnostics, State.diagnostics, journal_commit, journal_commit]
    exact h.diagnostics

theorem conclude (h : Alike s t) (options : Options) (result : Except Refusal (Verdict α)) :
    Alike (s.conclude options result) (t.conclude options result) := by
  match result with
  | .error (.problem p) => exact h.reportProblem p
  | .error .overflow =>
    exact ⟨congrArg (fun s : State α => { s with halted := true }) h.bare, h.diagnostics⟩
  | .ok v =>
    have hremarks := foldl (fun h r => h.remark r r) v.afterwards (h.commit options v.change)
    simp only [State.conclude]
    cases v.problem with
    | none => exact hremarks
    | some p => exact hremarks.reportProblem p

theorem apply (h : Alike s t) {ctx : Context} (hlog : ctx.log = none) {source source' : Path}
    (hbeside : ctx.Beside source source') {st st' : Statement} (hst : st.lineless = st'.lineless) :
    Alike (s.apply ctx source st) (t.apply ctx source' st') := by
  have hbare (s : State α) {source : Path} (hbeside : ctx.Beside source source') (st : Statement) :
      s.survey ctx source st =
        (Verdict.ofStatement ctx s.bare source' st.lineless).outcome
          (.start st.lineless.parameters s.bare.counters.spectrum) := by
    have hverdict := Verdict.ofStatement_bare hlog hbeside.symm (s.moveTo source st.line) st
    rw [survey, ← hverdict]
    rfl
  have hsurvey : s.survey ctx source st = t.survey ctx source' st' := by
    rw [hbare s hbeside, hbare t rfl, h.bare, hst]
  rw [apply_eq_conclude, apply_eq_conclude, hsurvey]
  exact (foldl record _ (h.moveTo source source' st.line st'.line)).conclude ctx.options _

omit [Scalar α] in
theorem finish (h : Alike s t) : Alike s.finish t.finish := by
  have hclosed : Alike s.closeObject t.closeObject := by
    let close (s : State α) : State α := { s with openObject := none }
    have hnone : Alike (close s) (close t) := ⟨congrArg close h.bare, h.diagnostics⟩
    unfold closeObject
    rw [h.same State.openObject fun _ => rfl]
    split
    · exact h
    · exact hnone.reportProblem _
  unfold State.finish
  rw [h.halted]
  split
  · exact h
  · refine ⟨?_, ?_⟩
    · rw [bare_writeCamera, bare_writeCamera, hclosed.bare]
    · rw [State.diagnostics, State.diagnostics, journal_writeCamera, journal_writeCamera]
      exact hclosed.diagnostics

end Alike

end State

end SceneConvert
