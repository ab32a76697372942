import SceneConvert.Proofs.Geometry.Exact
import SceneConvert.Proofs.Run.Offstage
import SceneConvert.Proofs.Run.Scopes

/-!
# SceneConvert.Proofs.Run.InPlace

An object that is drawn where it was defined.

* `Stage.Rehearses`: what was recorded for an object on one stage has been drawn on another one.
* `Rehearsal.apply`, `Rehearsal.run`: directives keep that up.
* `Statement.closesScopes`: bodies that close the scopes they open.
* `Framing`: the directives that make an object of a body and draw it at once, and those that make a
  scope of it.
* `State.object_in_place`: in exact arithmetic both come to the same.
-/

namespace SceneConvert

/-! ## Stages -/

/-- A deed that has to do neither with objects nor with the end of the world. -/
def Deed.isInner {α : Type} : Deed α → Bool
  | keeps | opens | closes | adds _ => true
  | closesAll | begins _ | ends | draws _ => false

theorem State.isInner_deed {α : Type} [Scalar α] (ctx : Context) (source : Path) (s : State α)
    {st : Statement} (h : (Action.ofWord st.word).isInner = true) :
    (s.deed ctx source st).isInner = true := by
  have hdoes := s.does_deed ctx source st
  generalize Action.ofWord st.word = a, s.deed ctx source st = d at h hdoes
  cases hdoes with
  | closesScope _ => cases s.saved.isEmpty <;> rfl
  | plain _ | opensScope _ | addsNothing | addsShape _ => rfl
  | endsWorld | beginsObject | endsObject | drawsNothing | drawsObject _ _ _ => cases h

section

variable {K : Type} [ExactScalar K]

/-- What is drawn of the records of an object at the place of its definition. -/
def OpenObject.replay (b : OpenObject K) (records : Array (Placed K)) : List (Placed K) :=
  records.toList.map fun p => p.at_ (b.base * p.binding.transform)

/-- What was recorded for the object `b` on one stage has been drawn on another one, which is the same
otherwise, apart from objects. -/
structure Stage.Rehearses (b : OpenObject K) (drawn recorded : Stage K) : Prop where
  openObject : recorded.openObject = some b
  replayed : ∃ records objects, recorded.objects.get? b.name = some records ∧
    drawn = { recorded.draw (b.replay records) with objects := objects, openObject := none }

theorem OpenObject.replay_push {b : OpenObject K} (hb : b.base.Consistent) (records : Array (Placed K))
    (p : Placed K) :
    b.replay (records.push (p.at_ (b.base.inverse * p.binding.transform))) = b.replay records ++ [p] := by
  have hback : (p.at_ (b.base.inverse * p.binding.transform)).at_
      (b.base * (b.base.inverse * p.binding.transform)) = p := by
    rw [hb.mul_inverse_mul]
    rfl
  rw [replay, Array.toList_push, List.map_append, List.map_singleton]
  exact congrArg (b.replay records ++ [·]) hback

theorem Stage.Rehearses.after {b : OpenObject K} (hb : b.base.Consistent) {drawn recorded : Stage K}
    (h : Stage.Rehearses b drawn recorded) (g : Graphics K) {d : Deed K} (hd : d.isInner = true) :
    Stage.Rehearses b (drawn.after g d) (recorded.after g d) := by
  obtain ⟨hopen, records, objects, hrecords, rfl⟩ := h
  cases d with
  | keeps | opens | closes => exact ⟨hopen, records, objects, hrecords, rfl⟩
  | adds shape =>
    let p : Placed K := ⟨shape, recorded.graphics.binding⟩
    have hadds : recorded.after g (.adds shape) =
        { recorded with
          objects := recorded.objects.set b.name
            (records.push (p.at_ (b.base.inverse * p.binding.transform))) } := by
      simp only [Stage.after, Stage.addShape, hopen, hrecords, Option.getD_some]
      rfl
    rw [hadds]
    refine ⟨hopen, _, objects, Dictionary.get?_set_self _ _ _, ?_⟩
    rw [b.replay_push hb]
    exact congrArg (fun x : Stage K => { x with objects := objects, openObject := none })
      (recorded.draw_append (b.replay records) [p])
  | closesAll | begins _ | ends | draws _ => cases hd

/-! ## Directives -/

/-- Two states at the same place of a body: in one its shapes are drawn, in the other they are recorded
for the object `b`. -/
structure Rehearsal (b : OpenObject K) (drawn recorded : State K) : Prop where
  offstage : drawn.offstage = recorded.offstage
  diagnostics : drawn.diagnostics = recorded.diagnostics
  stage : Stage.Rehearses b drawn.stage recorded.stage

namespace Rehearsal

variable {ctx : Context} {source : Path} {stack : List Path} {b : OpenObject K}
variable {drawn recorded : State K}

theorem halted (h : Rehearsal b drawn recorded) : drawn.halted = recorded.halted :=
  (congrArg State.halted h.offstage :)

theorem apply (hlog : ctx.log = none) (hb : b.base.Consistent) (h : Rehearsal b drawn recorded)
    {st : Statement} (hst : (Action.ofWord st.word).isInner = true) :
    Rehearsal b (drawn.apply ctx source st) (recorded.apply ctx source st) := by
  have hsurvey : drawn.survey ctx source st = recorded.survey ctx source st :=
    State.survey_eq_of_offstage hlog hst h.offstage
  have hoffstage : (drawn.apply ctx source st).offstage = (recorded.apply ctx source st).offstage :=
    State.offstage_apply hlog hst h.offstage
  refine ⟨hoffstage, ?_, ?_⟩
  · rw [State.diagnostics_apply, State.diagnostics_apply, h.diagnostics, hsurvey]
  · have hmesh : drawn.counters.next .mesh = recorded.counters.next .mesh :=
      (congrArg (fun s : State K => s.counters.next .mesh) h.offstage :)
    have hdeed : drawn.deed ctx source st = recorded.deed ctx source st := by
      rw [State.deed, State.deed, hsurvey, hmesh]
    have hgraphics : (drawn.apply ctx source st).graphics = (recorded.apply ctx source st).graphics :=
      (congrArg State.graphics hoffstage :)
    rw [State.stage_apply, State.stage_apply, hdeed, hgraphics]
    exact h.stage.after hb _ (State.isInner_deed ctx source recorded hst)

theorem run (hlog : ctx.log = none) (hb : b.base.Consistent) (h : Rehearsal b drawn recorded)
    {body : List Statement} (hbody : ∀ st ∈ body, (Action.ofWord st.word).isInner = true) :
    Rehearsal b (drawn.run ctx source stack (body.map .statement))
      (recorded.run ctx source stack (body.map .statement)) := by
  induction body generalizing drawn recorded with
  | nil => simpa using h
  | cons st body ih =>
    cases hhalted : recorded.halted with
    | true => rwa [State.run_of_halted hhalted, State.run_of_halted (h.halted.trans hhalted)]
    | false =>
      have hst := hbody st List.mem_cons_self
      have hplain : Action.ofWord st.word ≠ .include_ := by
        intro hinclude
        rw [hinclude] at hst
        cases hst
      rw [List.map_cons, State.run_apply hhalted hplain,
        State.run_apply (h.halted.trans hhalted) hplain]
      exact ih (h.apply hlog hb hst) fun st hst => hbody st (List.mem_cons_of_mem _ hst)

end Rehearsal

end

/-! ## Bodies -/

/-- Whether the statements close the `n` scopes that are open before them and all that they open, and no
other ones. -/
def Statement.closesScopes (n : Nat) : List Statement → Bool
  | [] => n == 0
  | st :: sts =>
    match st.scopeRole with
    | .opens => closesScopes (n + 1) sts
    | .closes => n != 0 && closesScopes (n - 1) sts
    | .keeps => closesScopes n sts
    | .closesAll => false

theorem Action.ne_include_of_isInner {a : Action} (h : a.isInner = true) : a ≠ .include_ := by
  rintro rfl
  cases h

namespace State

section

variable {α : Type} [Scalar α] {ctx : Context} {source : Path} {stack : List Path}

/-- What was saved outside of the scopes is what is saved behind them. -/
theorem saved_run {sts : List Statement} (hsts : ∀ st ∈ sts, Action.ofWord st.word ≠ .include_)
    {s : State α} (inner : List (Graphics α)) {outer : List (Graphics α)}
    (hsaved : s.saved = inner ++ outer) (hcloses : Statement.closesScopes inner.length sts = true)
    (hend : (s.run ctx source stack (sts.map .statement)).halted = false) :
    (s.run ctx source stack (sts.map .statement)).saved = outer := by
  induction sts generalizing s inner with
  | nil =>
    have hinner : inner = [] := by simpa [Statement.closesScopes] using hcloses
    rw [List.map_nil, run_nil, hsaved, hinner, List.nil_append]
  | cons st sts ih =>
    have hst := hsts st List.mem_cons_self
    cases hhalted : s.halted with
    | true =>
      rw [run_of_halted hhalted, hhalted] at hend
      cases hend
    | false =>
      rw [List.map_cons, run_apply hhalted hst] at hend ⊢
      have hbehind : (s.apply ctx source st).saved = st.scopeRole.saved s.graphics s.saved := by
        have hmoment := Moment.saved_behind ctx (⟨s, source, stack, .statement st⟩ : Moment α)
        simpa only [Moment.behind, if_neg hst, Moment.scopeRole] using hmoment
      have hsts' : ∀ st ∈ sts, Action.ofWord st.word ≠ .include_ :=
        fun st hst => hsts st (List.mem_cons_of_mem _ hst)
      rw [hsaved] at hbehind
      unfold Statement.closesScopes at hcloses
      cases hrole : st.scopeRole <;> rw [hrole] at hbehind hcloses
      case opens => exact ih hsts' (s.graphics :: inner) hbehind hcloses hend
      case closes =>
        cases inner with
        | nil => cases hcloses
        | cons g inner => exact ih hsts' inner hbehind (by simpa using hcloses) hend
      case closesAll => cases hcloses
      case keeps => exact ih hsts' inner hbehind hcloses hend

theorem output_run {sts : List Statement} (hsts : ∀ st ∈ sts, Action.ofWord st.word ≠ .include_)
    (s : State α) :
    ∃ ws, (s.run ctx source stack (sts.map .statement)).output = s.output.writeAll ws := by
  induction sts generalizing s with
  | nil => exact ⟨[], by simp⟩
  | cons st sts ih =>
    cases hhalted : s.halted with
    | true => exact ⟨[], by rw [run_of_halted hhalted, Output.writeAll_nil]⟩
    | false =>
      obtain ⟨ws, hws⟩ := (writesAt_apply ctx source s st).output
      obtain ⟨ws', hws'⟩ := ih (fun st hst => hsts st (List.mem_cons_of_mem _ hst))
        (s.apply ctx source st)
      refine ⟨ws ++ ws', ?_⟩
      rw [List.map_cons, run_apply hhalted (hsts st List.mem_cons_self), hws', hws,
        Output.writeAll_append]

end

/-! ## Frames -/

section

variable {α : Type} [Scalar α] {ctx : Context} {source : Path} {s : State α} {st : Statement}

theorem apply_openScope (h : Action.ofWord st.word = .attributeBegin) :
    s.apply ctx source st = (s.moveTo source st.line).push := by
  rw [apply_eq_conclude, survey_openScope (.inl h)]
  rfl

theorem apply_closeScope (h : Action.ofWord st.word = .attributeEnd) (hs : s.saved ≠ []) :
    s.apply ctx source st = (s.moveTo source st.line).pop := by
  rw [apply_eq_conclude, survey_closeScope (.inl h), if_neg (by simpa using hs)]
  rfl

theorem apply_endObject (h : Action.ofWord st.word = .objectEnd) (hs : s.saved ≠ []) {o : OpenObject α}
    (hopen : s.openObject = some o) :
    s.apply ctx source st = { (s.moveTo source st.line).pop with openObject := none } := by
  rw [apply_eq_conclude, survey_endObject h, if_neg (by simpa using hs), hopen]
  rfl

theorem apply_beginObject (ctx : Context) (source : Path) (h : Action.ofWord st.word = .objectBegin)
    {name : String} (hname : st.text? = some name) (hopen : s.openObject = none) :
    ∃ j : Journal, j.diagnostics = s.diagnostics ∧ s.apply ctx source st =
      { s.push with
        objects := s.objects.set name #[], openObject := some ⟨name, s.graphics.transform⟩
        journal := j, location := (source, st.line) } := by
  have hsurvey : s.survey ctx source st =
      (.ok ⟨.beginObject name, none, []⟩,
        ⟨st.parameters,
          if s.objects.contains name then #[.remark (.objectRedefined name)] else #[],
          s.counters.spectrum⟩) := by
    unfold survey Verdict.ofStatement
    rw [h]
    change (Verdict.beginObject (s.moveTo source st.line) st).outcome _ = _
    unfold Verdict.beginObject
    rw [Survey.outcome_bind, st.outcome_text, hname]
    change Survey.outcome (if s.objects.contains name then _ else _) _ = _
    cases s.objects.contains name <;>
      (change Survey.outcome (if s.openObject.isSome then _ else _) _ = _
       rw [hopen]
       rfl)
  rw [apply_eq_conclude, hsurvey]
  cases s.objects.contains name with
  | true => exact ⟨_, diagnostics_remark s _, rfl⟩
  | false => exact ⟨_, rfl, rfl⟩

theorem apply_drawObject (h : Action.ofWord st.word = .objectInstance) {name : String}
    (hname : st.text? = some name) (hskip : ctx.options.skipInstances = false)
    (hopen : s.openObject = none) {records : Array (Placed α)}
    (hrecords : s.objects.get? name = some records) :
    s.apply ctx source st = (s.moveTo source st.line).drawRecords records.toList := by
  have hsurvey : s.survey ctx source st =
      (.ok ⟨.drawObject records, none, []⟩, .start st.parameters s.counters.spectrum) := by
    unfold survey Verdict.ofStatement
    rw [h]
    change (Verdict.drawObject ctx (s.moveTo source st.line) st).outcome _ = _
    unfold Verdict.drawObject
    rw [Survey.outcome_bind, st.outcome_text, hname]
    dsimp only
    rw [hskip]
    change Survey.outcome (if s.openObject.isSome then _ else Survey.require _ (s.objects.get? name) >>= _)
      _ = _
    rw [hopen, hrecords]
    rfl
  rw [apply_eq_conclude, hsurvey]
  rfl

end

end State

/-- The directives that make of a body an object and draw it at once, and those that make a scope of it. -/
structure Framing where
  name : String
  objectBegin : Statement
  objectEnd : Statement
  objectInstance : Statement
  scopeBegin : Statement
  scopeEnd : Statement
  action_objectBegin : Action.ofWord objectBegin.word = .objectBegin
  text_objectBegin : objectBegin.text? = some name
  action_objectEnd : Action.ofWord objectEnd.word = .objectEnd
  action_objectInstance : Action.ofWord objectInstance.word = .objectInstance
  text_objectInstance : objectInstance.text? = some name
  action_scopeBegin : Action.ofWord scopeBegin.word = .attributeBegin
  action_scopeEnd : Action.ofWord scopeEnd.word = .attributeEnd

namespace Framing

def object (f : Framing) (body : List Statement) : List Statement :=
  f.objectBegin :: (body ++ [f.objectEnd, f.objectInstance])

def scope (f : Framing) (body : List Statement) : List Statement :=
  f.scopeBegin :: (body ++ [f.scopeEnd])

section

variable {K : Type} [ExactScalar K] {ctx : Context} {source : Path}

theorem rehearsal (f : Framing) {s : State K} (hopen : s.openObject = none) :
    Rehearsal ⟨f.name, s.graphics.transform⟩ (s.apply ctx source f.scopeBegin)
      (s.apply ctx source f.objectBegin) := by
  obtain ⟨j, hj, hbegins⟩ :=
    State.apply_beginObject ctx source f.action_objectBegin f.text_objectBegin hopen
  rw [hbegins, State.apply_openScope f.action_scopeBegin]
  refine ⟨rfl, hj.symm, rfl, #[], s.objects, Dictionary.get?_set_self _ _ _, ?_⟩
  simp [State.stage, State.entities, State.entries, State.push, State.moveTo, Stage.draw,
    OpenObject.replay, Placed.named, hopen]

theorem replayed (f : Framing) (ctx : Context) (source : Path) {g : Graphics K}
    {outer : List (Graphics K)} {drawn recorded : State K}
    (h : Rehearsal ⟨f.name, g.transform⟩ drawn recorded) (hsaved : drawn.saved = g :: outer)
    (hskip : ctx.options.skipInstances = false) :
    let direct := drawn.apply ctx source f.scopeEnd
    let instanced := (recorded.apply ctx source f.objectEnd).apply ctx source f.objectInstance
    (recorded.apply ctx source f.objectEnd).halted = recorded.halted ∧
      instanced.offstage = direct.offstage ∧ instanced.diagnostics = direct.diagnostics ∧
      instanced.openObject = direct.openObject ∧
      instanced.entities = direct.entities ∧ instanced.counters.shape = direct.counters.shape := by
  obtain ⟨hoffstage, hdiagnostics, hopen, records, objects, hrecords, hdrawn⟩ := h
  have hsaved' : recorded.saved = g :: outer :=
    (congrArg State.saved hoffstage.symm :).trans hsaved
  have hpop {s : State K} (hs : s.saved = g :: outer) : s.pop = { s with graphics := g, saved := outer } := by
    simp only [State.pop, hs]
  let left : State K := { recorded with graphics := g, saved := outer, openObject := none }
  have hend : recorded.apply ctx source f.objectEnd = left.moveTo source f.objectEnd.line := by
    rw [State.apply_endObject f.action_objectEnd (by simp [hsaved']) hopen]
    exact congrArg (fun s : State K => { s with openObject := none })
      (hpop (s := recorded.moveTo source f.objectEnd.line) hsaved')
  have hinstanced : (recorded.apply ctx source f.objectEnd).apply ctx source f.objectInstance =
      ((left.moveTo source f.objectEnd.line).moveTo source f.objectInstance.line).drawRecords
        records.toList := by
    rw [hend]
    exact State.apply_drawObject f.action_objectInstance f.text_objectInstance hskip rfl hrecords
  have hdirect : drawn.apply ctx source f.scopeEnd =
      { drawn.moveTo source f.scopeEnd.line with graphics := g, saved := outer } := by
    rw [State.apply_closeScope f.action_scopeEnd (by simp [hsaved])]
    exact hpop (s := drawn.moveTo source f.scopeEnd.line) hsaved
  rw [hinstanced, hdirect]
  generalize hbehind : (left.moveTo source f.objectEnd.line).moveTo source f.objectInstance.line = behind
  have hstage : (behind.drawRecords records.toList).stage =
      left.stage.draw (records.toList.map fun p => p.at_ (g.transform * p.binding.transform)) := by
    rw [State.stage_drawRecords, ← hbehind]
    rfl
  refine ⟨(congrArg State.halted hend :), ?_, ?_, ?_, ?_, ?_⟩
  · rw [State.offstage_drawRecords, ← hbehind]
    exact congrArg (fun s : State K => { s with graphics := g, saved := outer }) hoffstage.symm
  · have haside := congrArg Prod.fst (State.aside_drawRecords records.toList behind)
    refine (congrArg Journal.diagnostics haside).trans ?_
    rw [← hbehind]
    exact hdiagnostics.symm
  · exact (congrArg Stage.openObject hstage).trans (congrArg Stage.openObject hdrawn).symm
  · exact (congrArg Stage.entities hstage).trans (congrArg Stage.entities hdrawn).symm
  · exact (congrArg Stage.shapes hstage).trans (congrArg Stage.shapes hdrawn).symm

end

theorem ne_include_of_mem_object (f : Framing) {body : List Statement}
    (hbody : ∀ st ∈ body, Action.ofWord st.word ≠ .include_) :
    ∀ st ∈ f.object body, Action.ofWord st.word ≠ .include_ := by
  refine List.forall_mem_cons.2 ⟨by simp [f.action_objectBegin], ?_⟩
  refine List.forall_mem_append.2 ⟨hbody, ?_⟩
  simp [f.action_objectEnd, f.action_objectInstance]

theorem ne_include_of_mem_scope (f : Framing) {body : List Statement}
    (hbody : ∀ st ∈ body, Action.ofWord st.word ≠ .include_) :
    ∀ st ∈ f.scope body, Action.ofWord st.word ≠ .include_ := by
  refine List.forall_mem_cons.2 ⟨by simp [f.action_scopeBegin], ?_⟩
  refine List.forall_mem_append.2 ⟨hbody, ?_⟩
  simp [f.action_scopeEnd]

end Framing

/-! ## Drawing in place -/

/-- Behind `s`, the states `t` and `u` are reached by writing the same entities in the same order, and the
same other entries in the same order. Apart from objects and remarks they agree on everything. -/
structure State.SameDrawing {α : Type} (s t u : State α) : Prop where
  written : ∃ es es',
    t.entries = s.entries ++ es ∧ t.page.toList = s.page.toList ++ es ∧
    u.entries = s.entries ++ es' ∧ u.page.toList = s.page.toList ++ es' ∧
    es.filterMap Entry.entity? = es'.filterMap Entry.entity? ∧
    es.filter Entry.isOffstage = es'.filter Entry.isOffstage
  graphics : t.graphics = u.graphics
  saved : t.saved = u.saved
  counters : t.counters = u.counters
  coordinateSystems : t.coordinateSystems = u.coordinateSystems
  openObject : t.openObject = u.openObject
  materials : t.materials = u.materials
  textures : t.textures = u.textures
  camera : t.camera = u.camera
  filmAspect : t.filmAspect = u.filmAspect
  pageDepth : t.pageDepth = u.pageDepth
  finished : t.finished = u.finished
  outputNames : t.outputNames = u.outputNames
  meshes : t.meshes = u.meshes
  diagnostics : t.diagnostics = u.diagnostics

namespace State

theorem entries_offstage {α : Type} (s : State α) :
    s.offstage.entries = s.entries.filter Entry.isOffstage := by
  simp [offstage, bare, entries, List.filter_map, Function.comp_def]

/-- What was written is all that has to be compared apart from what is there offstage. -/
theorem sameDrawing_of_offstage {α : Type} {s t u : State α} (hoffstage : t.offstage = u.offstage)
    (hdiagnostics : t.diagnostics = u.diagnostics) (hopen : t.openObject = u.openObject)
    (hentities : t.entities = u.entities) (hshapes : t.counters.shape = u.counters.shape)
    (ht : ∃ ws, t.output = s.output.writeAll ws) (hu : ∃ ws, u.output = s.output.writeAll ws) :
    s.SameDrawing t u := by
  have same {β : Type} (f : State α → β) : f t.offstage = f u.offstage := congrArg f hoffstage
  have writes {t : State α} (ht : ∃ ws, t.output = s.output.writeAll ws) :
      ∃ es, t.entries = s.entries ++ es ∧ t.page.toList = s.page.toList ++ es := by
    obtain ⟨ws, hws⟩ := ht
    rw [Output.writeAll_eq] at hws
    refine ⟨ws.map Prod.fst, ?_, ?_⟩
    · rw [entries, show t.written = _ from congrArg Output.written hws]
      simp [entries, output, Function.comp_def]
    · rw [show t.page = _ from congrArg Output.page hws]
      simp [output]
  obtain ⟨es, hes, hpage⟩ := writes ht
  obtain ⟨es', hes', hpage'⟩ := writes hu
  have hcounters : t.counters = u.counters := by
    have hrest : ({ t.counters with shape := 0 } : Counters) = { u.counters with shape := 0 } :=
      same State.counters
    exact (congrArg (fun c : Counters => { c with shape := t.counters.shape }) hrest).trans
      (congrArg (fun n => { u.counters with shape := n }) hshapes)
  refine ⟨⟨es, es', hes, hpage, hes', hpage', ?_, ?_⟩, same State.graphics, same State.saved, hcounters,
    same State.coordinateSystems, hopen, same State.materials, same State.textures, same State.camera,
    same State.filmAspect, same State.pageDepth, same State.finished, same State.outputNames,
    same State.meshes, hdiagnostics⟩
  · rw [entities, entities, hes, hes', List.filterMap_append, List.filterMap_append] at hentities
    exact List.append_cancel_left hentities
  · have hothers := same State.entries
    rw [entries_offstage, entries_offstage, hes, hes', List.filter_append, List.filter_append]
      at hothers
    exact List.append_cancel_left hothers

end State

/-- In exact arithmetic, an object that is drawn where it was defined is its body in a scope: the same is
written, except that entities may stand at other places among the rest, and the same is reported and
remembered, except for the object itself. -/
theorem State.object_in_place {K : Type} [ExactScalar K] {ctx : Context} (hlog : ctx.log = none)
    (hskip : ctx.options.skipInstances = false) {s : State K} (hs : s.graphics.transform.Consistent)
    (hopen : s.openObject = none) (source : Path) (stack : List Path) (f : Framing)
    {body : List Statement} (hbody : ∀ st ∈ body, (Action.ofWord st.word).isInner = true)
    (hbalanced : Statement.closesScopes 0 body = true) :
    let instanced := s.run ctx source stack ((f.object body).map .statement)
    let direct := s.run ctx source stack ((f.scope body).map .statement)
    instanced.halted = direct.halted ∧ (direct.halted = false → s.SameDrawing instanced direct) := by
  intro instanced direct
  have hplain : ∀ st ∈ body, Action.ofWord st.word ≠ .include_ :=
    fun st hst => Action.ne_include_of_isInner (hbody st hst)
  cases hhalted : s.halted with
  | true =>
    rw [show instanced = s from run_of_halted hhalted, show direct = s from run_of_halted hhalted]
    exact ⟨rfl, fun hend => Bool.false_ne_true (hend.symm.trans hhalted) |>.elim⟩
  | false =>
    let drawn := (s.apply ctx source f.scopeBegin).run ctx source stack (body.map .statement)
    let recorded := (s.apply ctx source f.objectBegin).run ctx source stack (body.map .statement)
    have hbody : Rehearsal ⟨f.name, s.graphics.transform⟩ drawn recorded :=
      (f.rehearsal hopen).run hlog hs hbody
    have hinstanced : instanced =
        run ctx source stack [.statement f.objectEnd, .statement f.objectInstance] recorded := by
      refine (run_apply hhalted (by simp [f.action_objectBegin])).trans ?_
      rw [List.map_append, run_append]
      rfl
    have hdirect : direct = run ctx source stack [.statement f.scopeEnd] drawn := by
      refine (run_apply hhalted (by simp [f.action_scopeBegin])).trans ?_
      rw [List.map_append, run_append]
      rfl
    cases hstopped : drawn.halted with
    | true =>
      have hstopped' : recorded.halted = true := hbody.halted.symm.trans hstopped
      rw [hinstanced, hdirect, run_of_halted hstopped, run_of_halted hstopped']
      exact ⟨hbody.halted.symm, fun hend => Bool.false_ne_true (hend.symm.trans hstopped) |>.elim⟩
    | false =>
      have hstopped' : recorded.halted = false := hbody.halted.symm.trans hstopped
      have hsaved : drawn.saved = s.graphics :: s.saved := by
        refine saved_run hplain [] ?_ hbalanced hstopped
        rw [apply_openScope f.action_scopeBegin]
        rfl
      obtain ⟨hends, hoffstage, hdiagnostics, hclosed, hentities, hshapes⟩ :=
        f.replayed ctx source hbody hsaved hskip
      have hdirect : direct = drawn.apply ctx source f.scopeEnd := by
        rw [hdirect, run_apply hstopped (by simp [f.action_scopeEnd]), run_nil]
      have hinstanced : instanced =
          (recorded.apply ctx source f.objectEnd).apply ctx source f.objectInstance := by
        rw [hinstanced, run_apply hstopped' (by simp [f.action_objectEnd]),
          run_apply (hends.trans hstopped') (by simp [f.action_objectInstance]), run_nil]
      rw [← hdirect, ← hinstanced] at hoffstage hdiagnostics hclosed hentities hshapes
      refine ⟨(congrArg State.halted hoffstage :), fun _ => ?_⟩
      exact sameDrawing_of_offstage hoffstage hdiagnostics hclosed hentities hshapes
        (output_run (f.ne_include_of_mem_object hplain) s) (output_run (f.ne_include_of_mem_scope hplain) s)

/-- Frames without anything but words and a name. -/
def Framing.ofName (name : String) : Framing where
  name := name
  objectBegin := ⟨1, "ObjectBegin", some (.text name), ⟨[]⟩⟩
  objectEnd := .bare "ObjectEnd"
  objectInstance := ⟨1, "ObjectInstance", some (.text name), ⟨[]⟩⟩
  scopeBegin := .bare "AttributeBegin"
  scopeEnd := .bare "AttributeEnd"
  action_objectBegin := (by decide : Action.ofWord "ObjectBegin" = .objectBegin)
  text_objectBegin := rfl
  action_objectEnd := by decide
  action_objectInstance := (by decide : Action.ofWord "ObjectInstance" = .objectInstance)
  text_objectInstance := rfl
  action_scopeBegin := by decide
  action_scopeEnd := by decide

/-- A triangle that is moved, in real numbers. -/
theorem State.object_in_place_moved :
    let move : Statement := ⟨1, "Translate", some (.list [.integer 1, .integer 2, .integer 3]), ⟨[]⟩⟩
    let triangle : Statement := ⟨1, "Shape", some (.text "trianglemesh"),
      ⟨[⟨"P", none, .list (List.replicate 9 (.integer 0)), false⟩]⟩⟩
    let file : Path := ⟨"/main.pbrt"⟩
    let s : State ℝ := opening Conversion.solitary
    let instanced := s.run Conversion.solitary file [file]
      (((Framing.ofName "o").object [move, triangle]).map .statement)
    let direct := s.run Conversion.solitary file [file]
      (((Framing.ofName "o").scope [move, triangle]).map .statement)
    direct.entities.map Prod.fst = ["shape_0"] ∧ s.SameDrawing instanced direct := by
  intro move triangle file s instanced direct
  let s₁ := s.apply Conversion.solitary file (.bare "AttributeBegin")
  let s₂ := s₁.apply Conversion.solitary file move
  let s₃ := s₂.apply Conversion.solitary file triangle
  have hdirect : direct = s₃.apply Conversion.solitary file (.bare "AttributeEnd") := by
    refine (run_apply rfl (by decide)).trans ?_
    refine (run_apply rfl (by decide)).trans ?_
    refine (run_apply rfl (by decide)).trans ?_
    exact (run_apply rfl (by decide)).trans run_nil
  have hs : s.graphics.transform.Consistent := Transform.consistent_identity
  have hinner : ∀ st ∈ [move, triangle], (Action.ofWord st.word).isInner = true := by decide
  obtain ⟨-, hsame⟩ : instanced.halted = direct.halted ∧
      (direct.halted = false → s.SameDrawing instanced direct) :=
    object_in_place rfl rfl hs rfl file [file] (Framing.ofName "o") hinner rfl
  refine ⟨?_, hsame ?_⟩
  · rw [hdirect]
    decide +kernel
  · rw [hdirect]
    rfl
end SceneConvert
