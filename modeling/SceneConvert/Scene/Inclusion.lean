import SceneConvert.Scene.Directive

/-!
# SceneConvert.Scene.Inclusion

Including a file in a scene.

* `Inclusion.ofStatement`: the file that an include directive names. A file that is being converted
  is refused, so that the directive cannot go in circles.
* `State.enterFile`, `State.leaveFile`: what happens before and after the statements of the file.
-/

namespace SceneConvert

structure IncludedFile where
  /-- The path as it was found. -/
  path : Path
  /-- The absolute path, by which files are told apart. -/
  key : Path
  text : String

inductive Inclusion where
  /-- The file was converted before, into this file if it has one. -/
  | repeated (path : Path) (output : Option Path)
  | enter (file : IncludedFile)

namespace Inclusion

variable {α : Type}

/-- What an include directive of the file `source` asks for. `stack` has the absolute paths of the
files that are being converted. -/
def ofStatement (ctx : Context) (stack : List Path) (s : State α) (source : Path)
    (st : Statement) : Except Problem Inclusion :=
  match st.text? with
  | none => .error (.textExpected st.word)
  | some name =>
    match ctx.files.include? source name ctx.includeRoot with
    | none => .error (.includeMissing name)
    | some path =>
      let files := ctx.filesFor s.journal path
      let key := files.absolute path
      if key ∈ stack then .error (.includeRecursive path)
      else
        let earlier := if ctx.options.skipRepeatedIncludes then s.included.get? key else none
        match earlier, files.readText path with
        | some output, _ => .ok (.repeated path output)
        | none, .error e => .error (.includeUnreadable path e)
        | none, .ok text => .ok (.enter ⟨path, key, text⟩)

/-- A file that is entered is a file of the tree, and not one that is being converted. -/
theorem ofStatement_enter {ctx : Context} {stack : List Path} {s : State α} {source : Path}
    {st : Statement} {file : IncludedFile}
    (h : ofStatement ctx stack s source st = .ok (.enter file)) :
    file.key ∈ ctx.files.filePaths ∧ file.key ∉ stack := by
  unfold ofStatement at h
  split at h
  · cases h
  · split at h
    · cases h
    · dsimp only at h
      split at h
      · cases h
      · rename_i hs
        split at h
        · cases h
        · cases h
        · rename_i ht
          cases h
          have found := FileTree.absolute_mem_filePaths ht
          rw [Context.filePaths_filesFor] at found
          exact ⟨found, hs⟩

end Inclusion

namespace State

variable {α : Type} [Scalar α]

/-- The output file of an included file: a name made from its place below the input, with a number
from the second request for that name on. -/
def takeOutput (ctx : Context) (s : State α) (key : Path) : Path × State α :=
  let base := key.outputFor ctx.inputDirectory
  let earlier := (s.outputNames.get? base).getD 0
  let output := if earlier = 0 then base else base.numbered earlier
  (output, { s with outputNames := s.outputNames.set base (earlier + 1) })

/-- Begins an included file, with an empty page unless it goes into the file that includes it. -/
def enterFile (ctx : Context) (s : State α) (file : IncludedFile) : Option Path × State α :=
  let s := s.remark (.including file.path)
  if ctx.options.singleFile then (none, s)
  else
    let (output, s) := s.takeOutput ctx file.key
    (some output, { s with page := #[], pageDepth := 0 })

/-- Ends an included file: `s` is the state behind its last statement, `before` the one at the
directive that included it. -/
def leaveFile (s before : State α) (file : IncludedFile) (output : Option Path) : State α :=
  let s := { s with location := before.location, included := s.included.set file.key output }
  match output with
  | none => s
  | some output =>
    { s with
      finished := s.finished.push ⟨output, s.page.toList⟩
      page := before.page
      pageDepth := before.pageDepth }.write (.include_ output)

def mention (s : State α) (path : Path) (output : Option Path) : State α :=
  let s := s.remark (.includeRepeated path)
  match output with
  | none => s
  | some output => s.write (.include_ output)

end State

end SceneConvert
