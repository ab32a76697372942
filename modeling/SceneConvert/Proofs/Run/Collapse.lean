import SceneConvert.Proofs.Run.Scene
import SceneConvert.Proofs.Run.Step
import SceneConvert.Proofs.Survey.Blind

/-!
# SceneConvert.Proofs.Run.Collapse

Whether a list of one element is read as that element makes no difference to a conversion.

* `apply_spread`: a directive does the same for its parameters and for their spreads.
* `run_collapsing`: two readings of a text with the same spread lead to the same state.
* `ofScene_collapsing`: the results are the same, the journal with its remarks on unused parameters
  included.
-/

namespace SceneConvert

/-- The same conversion with another way to read lists of one element. -/
def Context.collapsing (ctx : Context) (collapse : Bool) : Context :=
  { ctx with options := { ctx.options with collapseLists := collapse } }

theorem Inclusion.ofStatement_collapsing {α : Type} (ctx : Context) (c : Bool) (stack : List Path)
    (s : State α) (source : Path) (st : Statement) :
    ofStatement (ctx.collapsing c) stack s source st = ofStatement ctx stack s source st := rfl

theorem Inclusion.ofStatement_eq_of_spread {α : Type} (ctx : Context) (c : Bool) (stack : List Path)
    (s : State α) (source : Path) {st st' : Statement} (h : st'.spread = st.spread) :
    ofStatement (ctx.collapsing c) stack s source st' = ofStatement ctx stack s source st := by
  have hspread (st : Statement) :
      ofStatement ctx stack s source st.spread = ofStatement ctx stack s source st := rfl
  rw [ofStatement_collapsing, ← hspread, h, hspread]

namespace State

variable {α : Type} [Scalar α]

theorem apply_spread (ctx : Context) (source : Path) (s : State α) (st : Statement) :
    s.apply ctx source st.spread = s.apply ctx source st := by
  rw [apply_eq_conclude, survey_spread]
  rfl

theorem apply_collapsing (ctx : Context) (c : Bool) (source : Path) (s : State α) (st : Statement) :
    s.apply (ctx.collapsing c) source st = s.apply ctx source st := rfl

omit [Scalar α] in
theorem enterFile_collapsing (ctx : Context) (c : Bool) (s : State α) (file : IncludedFile) :
    s.enterFile (ctx.collapsing c) file = s.enterFile ctx file := rfl

theorem apply_eq_of_spread (ctx : Context) (c : Bool) (source : Path) (s : State α)
    {st st' : Statement} (h : st'.spread = st.spread) :
    s.apply (ctx.collapsing c) source st' = s.apply ctx source st := by
  rw [apply_collapsing, ← apply_spread, h, apply_spread]

theorem run_collapsing (ctx : Context) (c : Bool) (source : Path) (stack : List Path)
    (events events' : List Event) (s : State α)
    (h : events'.map Event.spread = events.map Event.spread) :
    run (ctx.collapsing c) source stack events' s = run ctx source stack events s := by
  fun_induction run ctx source stack events s generalizing events' with
  | case1 source stack s =>
    obtain rfl : events' = [] := by simpa using h
    exact run_nil
  | case2 source stack s event events hs => exact run_of_halted hs
  | case3 source stack s events hs f ih =>
    obtain ⟨event', events', rfl, hf, htail⟩ := List.map_eq_cons_iff.1 h
    obtain rfl := Event.eq_fault_of_spread hf
    rw [run_fault (by simpa using hs), ih events' htail]
  | case4 source stack s events hs st hst _ p hi ih =>
    obtain ⟨event', events', rfl, hf, htail⟩ := List.map_eq_cons_iff.1 h
    obtain ⟨st', rfl, hst'⟩ := Event.eq_statement_of_spread hf
    obtain ⟨hline, hword⟩ := Statement.head_eq_of_spread hst'
    rw [run_include_error (by simpa using hs) (hword ▸ hst)
      (by rw [hline, Inclusion.ofStatement_eq_of_spread ctx c stack _ source hst']; exact hi), hline,
      ih events' htail]
  | case5 source stack s events hs st hst _ path output hi ih =>
    obtain ⟨event', events', rfl, hf, htail⟩ := List.map_eq_cons_iff.1 h
    obtain ⟨st', rfl, hst'⟩ := Event.eq_statement_of_spread hf
    obtain ⟨hline, hword⟩ := Statement.head_eq_of_spread hst'
    rw [run_include_repeated (by simpa using hs) (hword ▸ hst)
      (by rw [hline, Inclusion.ofStatement_eq_of_spread ctx c stack _ source hst']; exact hi), hline,
      ih events' htail]
  | case6 source stack s events hs st hst _ file hi output inner henter _ ihinner ih =>
    obtain ⟨event', events', rfl, hf, htail⟩ := List.map_eq_cons_iff.1 h
    obtain ⟨st', rfl, hst'⟩ := Event.eq_statement_of_spread hf
    obtain ⟨hline, hword⟩ := Statement.head_eq_of_spread hst'
    rw [run_include_enter (by simpa using hs) (hword ▸ hst)
      (by rw [hline, Inclusion.ofStatement_eq_of_spread ctx c stack _ source hst']; exact hi), hline,
      enterFile_collapsing, henter,
      ihinner _ (Event.map_spread_ofText _ _ _), ih events' htail]
  | case7 source stack s events hs st hst ih =>
    obtain ⟨event', events', rfl, hf, htail⟩ := List.map_eq_cons_iff.1 h
    obtain ⟨st', rfl, hst'⟩ := Event.eq_statement_of_spread hf
    rw [run_apply (by simpa using hs) (by rw [(Statement.head_eq_of_spread hst').2]; exact hst),
      apply_eq_of_spread ctx c source s hst', ih events' htail]

theorem read_collapsing (ctx : Context) (c : Bool) (source : Path) (text : String) (s : State α) :
    s.read (ctx.collapsing c) source text = s.read ctx source text :=
  run_collapsing ctx c source _ _ _ s (Event.map_spread_ofText _ _ text)

theorem ofScene_collapsing (ctx : Context) (c : Bool) (scene : Scene) :
    (ofScene (ctx.collapsing c) scene : Except FileError (State α)) = ofScene ctx scene := by
  have hcontent : scene.content (ctx.collapsing c) = scene.content ctx := by cases scene <;> rfl
  have hopening : (scene.opening (ctx.collapsing c) : State α) = scene.opening ctx := by
    cases scene <;> rfl
  have hread (text : String) :
      ((scene.opening ctx).read (ctx.collapsing c) ctx.input text : State α) =
        (scene.opening ctx).read ctx ctx.input text := read_collapsing ctx c ctx.input text _
  rw [ofScene_eq, ofScene_eq, hcontent, hopening]
  exact congrArg (fun f => (scene.content ctx).map f) (funext fun t => congrArg finish (hread t))

end State

/-- The way to read lists of one element changes neither the output files, nor the meshes, nor
anything that is said, remarks on unused parameters included. -/
theorem Conversion.collapse_irrelevant (ctx : Context) (scene : Scene) :
    ofScene (ctx.collapsing true) scene = ofScene (ctx.collapsing false) scene := by
  have h (c : Bool) : ofScene (ctx.collapsing c) scene = ofScene ctx scene :=
    congrArg (Except.map (ending ctx)) (State.ofScene_collapsing (α := Float32) ctx c scene)
  rw [h, h]

end SceneConvert
