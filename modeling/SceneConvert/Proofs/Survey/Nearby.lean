import SceneConvert.Proofs.Survey.Outcome

/-!
# SceneConvert.Proofs.Survey.Nearby

What the verdict on a directive does not depend on.

* `Statement.lineless`, `State.bare`: a statement without its line; a state that does not remember where it
  is, what was said, and which files were included.
* `Context.Beside`: files in one directory. The names that they mention mean the same.
* `ofStatement_bare`: a directive means the same at a state and at the bare state, in one file and in
  another beside it.
-/

namespace SceneConvert

/-- The statement, wherever it stands. -/
def Statement.lineless (st : Statement) : Statement := { st with line := 0 }

/-- The state without what no directive looks at: its place, what was said, and which files were
included. -/
def State.bare {α : Type} (s : State α) : State α :=
  { s with
    journal := #[]
    location := (⟨""⟩, 0)
    included := {}
    written := s.written.map fun w => { w with said := 0 } }

/-- Files in one directory. -/
def Context.Beside (ctx : Context) (p q : Path) : Prop :=
  ctx.files.directoryOf p = ctx.files.directoryOf q

theorem Context.filesFor_of_log {ctx : Context} (h : ctx.log = none) (journal : Journal) (p : Path) :
    ctx.filesFor journal p = ctx.files := by
  simp only [filesFor, h]

theorem FileTree.include?_congr {t : FileTree} {p q : Path} (h : t.directoryOf p = t.directoryOf q)
    (name : String) (root : Path) : t.include? p name root = t.include? q name root := by
  unfold include?
  rw [h]

theorem FileTree.fileFor_congr {t : FileTree} {p q : Path} (h : t.directoryOf p = t.directoryOf q)
    (name : String) (root : Path) : t.fileFor p name root = t.fileFor q name root := by
  unfold fileFor
  rw [include?_congr h, h]

namespace Survey

variable {α : Type} {ctx : Context} {source source' : Path}

theorem texture_beside (h : ctx.Beside source source') (s : State α) (name : String) :
    texture ctx s source name = texture ctx s source' name := by
  have himage (class_ : TextureClass) :
      image ctx source class_ name = image ctx source' class_ name := by
    unfold image
    simp only [FileTree.fileFor_congr h]
  unfold texture
  simp only [himage]

theorem light_beside [Scalar α] (h : ctx.Beside source source') (s : State α) (kind : String) :
    light ctx s source kind = light ctx s source' kind := by
  unfold light environmentLight
  simp only [FileTree.fileFor_congr h]

/-- Without a log the journal does not matter for what is found in a mesh file. -/
theorem plyPlan_bare (hlog : ctx.log = none) (h : ctx.Beside source source') (s : State α) :
    plyPlan ctx s.bare source = plyPlan ctx s source' := by
  unfold plyPlan
  simp only [FileTree.fileFor_congr h, Context.filesFor_of_log hlog]
  rfl

theorem shape_bare (hlog : ctx.log = none) (h : ctx.Beside source source') (s : State α)
    (kind : String) : shape ctx s.bare source kind = shape ctx s source' kind := by
  unfold shape
  rw [plyPlan_bare hlog h]
  rfl

end Survey

/-- What a directive means is in its word, its operand and its parameters, in what the state knows, and
in the directory of its file. -/
theorem Verdict.ofStatement_bare {α : Type} [Scalar α] {ctx : Context} (hlog : ctx.log = none)
    {source source' : Path} (h : ctx.Beside source source') (s : State α) (st : Statement) :
    ofStatement ctx s.bare source st.lineless = ofStatement ctx s source' st := by
  unfold ofStatement
  have hword : st.lineless.word = st.word := rfl
  rw [hword]
  cases Action.ofWord st.word
  case texture =>
    simp only [texture, Survey.texture_beside h]
    rfl
  case lightSource =>
    simp only [light, Survey.light_beside h]
    rfl
  case shape =>
    simp only [shape, Survey.shape_bare hlog h]
    rfl
  all_goals rfl

end SceneConvert
