import SceneConvert.Conversion.Result

/-!
# SceneConvert.Proofs.Run.Scene

What a conversion is given, a text or the input file, and what it makes of it.
-/

namespace SceneConvert

inductive Scene where
  /-- A text that is converted as if it were the input. -/
  | text (t : String)
  /-- The input file. -/
  | input

namespace Scene

def content (ctx : Context) : Scene → Except FileError String
  | text t => .ok t
  | input => ctx.files.readText ctx.input

/-- The state before the first directive. -/
def opening {α : Type} [Scalar α] (ctx : Context) : Scene → State α
  | text _ => State.opening ctx
  | input => (State.opening ctx).remark (.started ctx.input ctx.includeRoot)

end Scene

/-- The final state of converting a scene. -/
def State.ofScene {α : Type} [Scalar α] (ctx : Context) : Scene → Except FileError (State α)
  | .text t => .ok (ofText ctx t)
  | .input => ofInput ctx

theorem State.ofScene_eq {α : Type} [Scalar α] (ctx : Context) (scene : Scene) :
    (ofScene ctx scene : Except FileError (State α)) =
      (scene.content ctx).map fun text => ((scene.opening ctx).read ctx ctx.input text).finish := by
  cases scene <;> rfl

/-- A scene that is converted to the end has a text, behind which the state is finished. -/
theorem State.exists_read_of_ofScene {α : Type} [Scalar α] {ctx : Context} {scene : Scene}
    {s : State α} (h : ofScene ctx scene = .ok s) :
    ∃ text, scene.content ctx = .ok text ∧
      s = ((scene.opening ctx).read ctx ctx.input text).finish := by
  rw [ofScene_eq] at h
  cases hc : scene.content ctx with
  | error e => rw [hc] at h; cases h
  | ok text =>
    rw [hc] at h
    cases h
    exact ⟨text, rfl, rfl⟩

/-- A scene text without any files around it. -/
def Conversion.solitary : Context where
  options := {}
  files := ⟨[], []⟩
  includeRoot := ⟨"/"⟩
  input := ⟨"/main.pbrt"⟩

/-- What comes of converting a scene, unless the input cannot be read. -/
def Conversion.ofScene (ctx : Context) (scene : Scene) :
    Except FileError (Except Journal Conversion) :=
  (State.ofScene ctx scene).map (ending ctx)

theorem Conversion.ofScene_ok {ctx : Context} {scene : Scene} {r : Except Journal Conversion}
    (h : ofScene ctx scene = .ok r) :
    ∃ s, State.ofScene ctx scene = .ok s ∧ ending ctx s = r := by
  unfold ofScene at h
  cases hs : (State.ofScene ctx scene : Except FileError (State Float32)) with
  | error e => rw [hs] at h; cases h
  | ok s =>
    rw [hs] at h
    cases h
    exact ⟨s, rfl, rfl⟩

/-- A conversion goes on to its end where there is room for its indentation and no mesh file stops it. -/
theorem Conversion.stopped?_eq_none {ctx : Context} {s : State Float32} :
    stopped? ctx s = none ↔
      (Indent.maxWidth < ctx.options.indent.width → ∀ w ∈ s.written, w.isIndented = false) ∧
        s.halted = false := by
  have hfirst : s.firstIndented = none ↔ ∀ w ∈ s.written, w.isIndented = false := by
    simp [State.firstIndented]
  unfold stopped?
  rw [← hfirst]
  by_cases hwidth : Indent.maxWidth < ctx.options.indent.width
  · cases hindented : s.firstIndented <;> simp [hwidth]
  · simp [hwidth]

theorem Conversion.ending_eq_ok {ctx : Context} {s : State Float32} {c : Conversion} :
    ending ctx s = .ok c ↔ stopped? ctx s = none ∧ ofState ctx s = c := by
  unfold ending
  cases stopped? ctx s <;> simp

theorem Conversion.ending_of_narrow {ctx : Context} {s : State Float32}
    (hnarrow : ctx.options.indent.width ≤ Indent.maxWidth) (h : s.halted = false) :
    ending ctx s = .ok (ofState ctx s) :=
  ending_eq_ok.2 ⟨stopped?_eq_none.2 ⟨fun hwide => absurd hnarrow (Nat.not_le.2 hwide), h⟩, rfl⟩

end SceneConvert
