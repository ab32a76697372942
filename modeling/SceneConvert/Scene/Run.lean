import SceneConvert.Scene.Inclusion
import SceneConvert.Statement.Reader

/-!
# SceneConvert.Scene.Run

The statements of a file one after the other, included files in place of the directives that name
them.

* `Context.unvisited`: the files that are not being converted. Every inclusion makes them fewer, so
  that a run ends.
* `State.run`: the state behind the statements of a file.
-/

namespace SceneConvert

/-- The files of the tree that are not being converted. -/
def Context.unvisited (ctx : Context) (stack : List Path) : List Path :=
  ctx.files.filePaths.filter (· ∉ stack)

theorem Context.length_unvisited_cons {ctx : Context} {stack : List Path} {key : Path}
    (mem : key ∈ ctx.files.filePaths) (fresh : key ∉ stack) :
    (ctx.unvisited (key :: stack)).length < (ctx.unvisited stack).length := by
  have shrink : ctx.unvisited (key :: stack) = (ctx.unvisited stack).filter (· != key) := by
    simp only [unvisited, List.filter_filter]
    congr 1
    funext p
    by_cases h : p = key <;> simp [h]
  rw [shrink]
  apply List.length_filter_lt_length_iff_exists.2
  exact ⟨key, by simp [unvisited, mem, fresh], by simp⟩

namespace State

variable {α : Type} [Scalar α]

/-- The state behind the statements of the file `source`. `stack` has the absolute paths of the files
that are being converted, this one included. A state that was halted stays as it is. -/
def run (ctx : Context) (source : Path) (stack : List Path) (events : List Event)
    (s : State α) : State α :=
  match events with
  | [] => s
  | event :: events =>
    if s.halted then s
    else match event with
      | .fault f => run ctx source stack events (s.note (.report (f.problem.diagnostic source f.line)))
      | .statement st =>
        if Action.ofWord st.word = .include_ then
          let s := s.moveTo source st.line
          match _found : Inclusion.ofStatement ctx stack s source st with
          | .error p => run ctx source stack events (s.reportProblem p)
          | .ok (.repeated path output) => run ctx source stack events (s.mention path output)
          | .ok (.enter file) =>
            let (output, inner) := s.enterFile ctx file
            let inner := run ctx file.path (file.key :: stack)
              (Event.ofText ctx.options.collapseLists file.text) inner
            run ctx source stack events (inner.leaveFile s file output)
        else run ctx source stack events (s.apply ctx source st)
  termination_by ((ctx.unvisited stack).length, events.length)
  decreasing_by
  all_goals first
    | exact Prod.Lex.right _ (Nat.lt_succ_self _)
    | exact Prod.Lex.left _ _ (Context.length_unvisited_cons
        (Inclusion.ofStatement_enter _found).1 (Inclusion.ofStatement_enter _found).2)

/-- The state behind a text of the file `source`, read while `input` is being converted. -/
def read (ctx : Context) (source : Path) (text : String) (s : State α) : State α :=
  s.run ctx source [ctx.files.absolute ctx.input] (Event.ofText ctx.options.collapseLists text)

end State

end SceneConvert
