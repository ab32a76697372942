import SceneConvert.Scene.Directive

/-!
# SceneConvert.Proofs.Survey.Outcome

What a survey makes of the findings it starts from, one rule for each way to build a survey, and the
state after a directive in terms of it.

* `Survey.problems`: the problems that a survey comes to, in the order of their reports.
-/

namespace SceneConvert

def Finding.problem? : Finding → Option Problem
  | problem p => some p
  | remark _ | spectrum _ => none

def Finding.isSpectrum : Finding → Bool
  | spectrum _ => true
  | remark _ | problem _ => false

def Findings.sampled (f : Findings) : Nat := f.items.toList.countP Finding.isSpectrum

namespace Survey

variable {α β γ : Type}

/-- The result of a survey, and the findings behind it. -/
def outcome (m : Survey β) (f : Findings) : Except Refusal β × Findings := m.run.run f

@[simp] theorem outcome_pure (b : β) (f : Findings) :
    outcome (pure b : Survey β) f = (.ok b, f) := rfl

@[simp] theorem outcome_throw (r : Refusal) (f : Findings) :
    outcome (throw r : Survey β) f = (.error r, f) := rfl

@[simp] theorem outcome_say (x : Finding) (f : Findings) :
    outcome (say x) f = (.ok (), { f with items := f.items.push x }) := rfl

@[simp] theorem outcome_parameters (g : Parameters → β × Parameters) (f : Findings) :
    outcome (parameters g) f = (.ok (g f.parameters).1, { f with parameters := (g f.parameters).2 }) :=
  rfl

@[simp] theorem outcome_unused (f : Findings) :
    outcome unused f = (.ok (f.parameters.unused.map .parameterUnused), f) := rfl

@[simp] theorem outcome_spectrum (wavelengths values : List Float32) (f : Findings) :
    outcome (spectrum wavelengths values) f =
      (.ok (Counter.spectrum.name f.nextSpectrum),
        { f with
          items := f.items.push
            (.spectrum ⟨Counter.spectrum.name f.nextSpectrum, wavelengths, values⟩)
          nextSpectrum := f.nextSpectrum + 1 }) := rfl

theorem outcome_bind (m : Survey β) (k : β → Survey γ) (f : Findings) :
    (m >>= k).outcome f =
      match m.outcome f with
      | (.ok b, g) => (k b).outcome g
      | (.error r, g) => (.error r, g) := by
  change (ExceptT.bindCont k (m.outcome f).1) (m.outcome f).2 = _
  rcases m.outcome f with ⟨_ | _, _⟩ <;> rfl

theorem outcome_bind_ok {m : Survey β} {k : β → Survey γ} {f g : Findings} {b : β}
    (h : m.outcome f = (.ok b, g)) : (m >>= k).outcome f = (k b).outcome g := by
  rw [outcome_bind, h]

theorem outcome_tryCatch (m : Survey β) (k : Refusal → Survey β) (f : Findings) :
    outcome (tryCatch m k) f =
      match m.outcome f with
      | (.ok b, g) => (.ok b, g)
      | (.error r, g) => (k r).outcome g := by
  simp only [tryCatch, outcome, tryCatchThe, MonadExceptOf.tryCatch, ExceptT.tryCatch, ExceptT.run,
    StateT.run, ExceptT.mk, bind, StateT.bind]
  rcases m f with ⟨_ | _, _⟩ <;> rfl

theorem outcome_attempt (m : Survey β) (f : Findings) :
    m.attempt.outcome f =
      match m.outcome f with
      | (.ok b, g) => (.ok (.ok b), g)
      | (.error (.problem p), g) => (.ok (.error p), g)
      | (.error .overflow, g) => (.error .overflow, g) := by
  rw [attempt, outcome_tryCatch, map_eq_pure_bind, outcome_bind]
  rcases m.outcome f with ⟨(_ | _) | _, _⟩ <;> rfl

theorem findings_attempt (m : Survey β) (f : Findings) : (m.attempt.outcome f).2 = (m.outcome f).2 := by
  rw [outcome_attempt]
  rcases m.outcome f with ⟨(_ | _) | _, _⟩ <;> rfl

/-! ## Problems -/

/-- The problem with the result of a survey, if there is one. -/
def flaw? : Except Refusal (Verdict α) → Option Problem
  | .ok v => v.problem
  | .error (.problem p) => some p
  | .error .overflow => none

def change : Except Refusal (Verdict α) → Change α
  | .ok v => v.change
  | .error _ => .nothing

/-- The problems that a survey comes to, those of its findings first. -/
def problems (r : Except Refusal (Verdict α) × Findings) : List Problem :=
  r.2.items.toList.filterMap Finding.problem? ++ (flaw? r.1).toList

end Survey

namespace State

variable {α : Type} [Scalar α]

/-- The survey of a statement of the file `source`, at the place of the statement. -/
def survey (ctx : Context) (source : Path) (s : State α) (st : Statement) :
    Except Refusal (Verdict α) × Findings :=
  (Verdict.ofStatement ctx (s.moveTo source st.line) source st).outcome
    (.start st.parameters s.counters.spectrum)

theorem apply_eq_conclude (ctx : Context) (source : Path) (s : State α) (st : Statement) :
    s.apply ctx source st =
      ((s.survey ctx source st).2.items.toList.foldl record (s.moveTo source st.line)).conclude
        ctx.options (s.survey ctx source st).1 := rfl

end State

end SceneConvert
