import SceneConvert.Proofs.Run.History
import SceneConvert.Proofs.Run.Policy
import SceneConvert.Proofs.Run.Rejection

/-!
# SceneConvert.Proofs.Run.Stage

The part of a state that scopes, objects and shapes are about.

* `Stage`, `State.stage`: the part.
* `stage_emitAll`, `stage_recordAll`, `stage_enterFile`: what leaves it alone.
* `stage_commit`: a plain change makes of it no more than another graphics state.
* `stage_drawRecords`, `stage_addPlan`: what shapes make of it.
* `State.Does`: what a statement can do, by its word.
* `stage_apply`: for a directive it is the change that counts, if there is one.
-/

namespace SceneConvert

structure Stage (α : Type) where
  graphics : Graphics α
  saved : List (Graphics α)
  objects : Dictionary String (Array (Placed α))
  openObject : Option (OpenObject α)
  /-- How many entities have names. -/
  shapes : Nat
  /-- The entities that were written, in order, with their names. -/
  entities : List (String × Placed α)

namespace Entry

variable {α : Type}

def entity? : Entry α → Option (String × Placed α)
  | fragment (.entity name p) => some (name, p)
  | _ => none

theorem entity?_of_family {f : Fragment α} (h : f.family ≠ .entity) : (fragment f).entity? = none := by
  cases f <;> first | rfl | exact absurd rfl h

end Entry

/-- The placed shapes with the names of entities, the first of which has the number `n`. -/
def Placed.named {α : Type} (n : Nat) : List (Placed α) → List (String × Placed α)
  | [] => []
  | p :: ps => (Counter.shape.name n, p) :: named (n + 1) ps

theorem Placed.named_append {α : Type} (n : Nat) (ps qs : List (Placed α)) :
    named n (ps ++ qs) = named n ps ++ named (n + ps.length) qs := by
  induction ps generalizing n with
  | nil => rfl
  | cons p ps ih => simp [named, ih, Nat.add_assoc, Nat.add_comm 1]

namespace Stage

variable {α : Type}

def draw (x : Stage α) (ps : List (Placed α)) : Stage α :=
  { x with shapes := x.shapes + ps.length, entities := x.entities ++ Placed.named x.shapes ps }

theorem draw_append (x : Stage α) (ps qs : List (Placed α)) :
    (x.draw ps).draw qs = x.draw (ps ++ qs) := by
  simp [draw, Placed.named_append, Nat.add_assoc]

/-- The stage with a shape more, which is drawn, or recorded for the object that is being defined. -/
def addShape [Scalar α] (x : Stage α) (shape : Shape) : Stage α :=
  let p : Placed α := ⟨shape, x.graphics.binding⟩
  match x.openObject with
  | none => x.draw [p]
  | some o =>
    let records := (x.objects.get? o.name).getD #[]
    let recorded := p.at_ (o.base.inverse * x.graphics.transform)
    { x with objects := x.objects.set o.name (records.push recorded) }

end Stage

/-- What a directive does to the stage. -/
inductive Deed (α : Type) where
  /-- At most, another graphics state. -/
  | keeps
  | opens
  | closes
  | closesAll
  | begins (name : String)
  | ends
  | draws (records : List (Placed α))
  | adds (shape : Shape)

/-- The stage behind a deed. A deed that has to do with graphics states only leads to `g`. -/
def Stage.after {α : Type} [Scalar α] (x : Stage α) (g : Graphics α) : Deed α → Stage α
  | .keeps => { x with graphics := g }
  | .opens => { x with saved := x.graphics :: x.saved }
  | .closes => { x with graphics := x.saved.headD x.graphics, saved := x.saved.tail }
  | .closesAll =>
    { x with graphics := x.saved.getLast?.getD x.graphics, saved := [], openObject := none }
  | .begins name =>
    { x with
      saved := x.graphics :: x.saved
      objects := x.objects.set name #[]
      openObject := some ⟨name, x.graphics.transform⟩ }
  | .ends =>
    { x with graphics := x.saved.headD x.graphics, saved := x.saved.tail, openObject := none }
  | .draws records =>
    x.draw (records.map fun p => p.at_ (x.graphics.transform * p.binding.transform))
  | .adds shape => x.addShape shape

def ShapePlan.shape (mesh : String) : ShapePlan → Shape
  | sphere radius => .sphere radius
  | inline _ | separate _ | existing _ => .mesh mesh

def Change.deed {α : Type} (mesh : String) : Change α → Deed α
  | openScope => .opens
  | closeScope => .closes
  | endWorld => .closesAll
  | beginObject name => .begins name
  | endObject => .ends
  | drawObject records => .draws records.toList
  | shape plan => .adds (plan.shape mesh)
  | _ => .keeps

theorem Change.deed_of_isPlain {α : Type} (mesh : String) {c : Change α} (h : c.isPlain = true) :
    c.deed mesh = .keeps := by
  cases c <;> first | rfl | cases h

namespace State

variable {α : Type}

def entities (s : State α) : List (String × Placed α) := s.entries.filterMap Entry.entity?

def stage (s : State α) : Stage α :=
  ⟨s.graphics, s.saved, s.objects, s.openObject, s.counters.shape, s.entities⟩

/-! ## What leaves the stage alone -/

theorem entities_write (s : State α) (e : Entry α) :
    (s.write e).entities = s.entities ++ e.entity?.toList := by
  rw [entities, entries_write, List.filterMap_append]
  cases h : e.entity? <;> simp [entities, h]

theorem stage_write {s : State α} {e : Entry α} (h : e.entity? = none) :
    (s.write e).stage = s.stage := by
  have hentities := entities_write s e
  rw [h, Option.toList_none, List.append_nil] at hentities
  unfold stage
  rw [hentities]
  rfl

theorem stage_emit {s : State α} {f : Fragment α} (h : f.family ≠ .entity) :
    (s.emit f).stage = s.stage := stage_write (Entry.entity?_of_family h)

theorem stage_emitAll {fs : List (Fragment α)} {s : State α} (h : ∀ f ∈ fs, f.family ≠ .entity) :
    (s.emitAll fs).stage = s.stage := by
  induction fs generalizing s with
  | nil => rfl
  | cons f fs ih =>
    exact (ih fun x hx => h x (List.mem_cons_of_mem f hx)).trans (stage_emit (h f List.mem_cons_self))

theorem stage_writeSettings (options : Options) (settings : List (SettingKey × Int)) (s : State α) :
    (s.writeSettings options settings).stage = s.stage := by
  unfold writeSettings
  split
  · rfl
  · induction settings generalizing s with
    | nil => rfl
    | cons setting settings ih => exact (ih (s.write _)).trans (stage_write rfl)

theorem stage_take {s : State α} {c : Counter} (h : c ≠ .shape) : (s.take c).2.stage = s.stage := by
  have hshape : (s.counters.add 1 c).shape = s.counters.shape :=
    (s.counters.get_add 1 c .shape).trans (if_neg h)
  unfold take stage
  dsimp only
  rw [hshape]
  rfl

theorem stage_recordAll (items : List Finding) (s : State α) :
    (items.foldl record s).stage = s.stage := by
  induction items generalizing s with
  | nil => rfl
  | cons x items ih =>
    rw [List.foldl_cons, ih]
    cases x with
    | remark r => rfl
    | problem p => rfl
    | spectrum p =>
      refine (stage_emit (f := .spectrum p.name p.wavelengths p.values) nofun).trans ?_
      exact stage_take (c := .spectrum) nofun

theorem stage_mention (s : State α) (path : Path) (output : Option Path) :
    (s.mention path output).stage = s.stage := by
  cases output with
  | none => rfl
  | some output => exact stage_write rfl

theorem stage_enterFile (ctx : Context) (s : State α) (file : IncludedFile) :
    (s.enterFile ctx file).2.stage = s.stage := by
  unfold enterFile
  dsimp only
  split <;> rfl

theorem stage_leaveFile (s before : State α) (file : IncludedFile) (output : Option Path) :
    (s.leaveFile before file output).stage = s.stage := by
  cases output with
  | none => rfl
  | some output => exact stage_write rfl

theorem entities_finish (s : State α) : s.finish.entities = s.entities := by
  have camera (t : State α) : t.writeCamera.entities = t.entities := by
    unfold writeCamera
    split
    · rfl
    · exact congrArg Stage.entities ((stage_emit (f := .camera _ _) nofun).trans (stage_write rfl))
  unfold finish
  split
  · rfl
  · refine (camera _).trans ?_
    unfold closeObject
    split <;> rfl

/-! ## Changes -/

theorem stage_rebind {s t : State α} (h : t.stage = s.stage) (g : Graphics α) :
    ({ t with graphics := g } : State α).stage = { s.stage with graphics := g } :=
  congrArg (fun x : Stage α => { x with graphics := g }) h

theorem stage_commit_of_isPlain [Scalar α] (options : Options) (s : State α) {c : Change α}
    (h : c.isPlain = true) : ∃ g, (c.commit options s).stage = { s.stage with graphics := g } := by
  cases c with
  | film width height => exact ⟨_, stage_writeSettings options _ _⟩
  | setting key value => exact ⟨_, stage_writeSettings options _ s⟩
  | freshMaterial m =>
    have hbind := stage_rebind (stage_take (s := s) (c := .material) nofun)
      { s.graphics with material := s.counters.next .material }
    cases m with
    | none => exact ⟨_, hbind⟩
    | some m => exact ⟨_, (stage_emit (f := .material _ m) nofun).trans hbind⟩
  | namedMaterial name m => exact ⟨_, stage_emit (s := s) (f := .material name m) nofun⟩
  | texture name fragments =>
    refine ⟨_, stage_emitAll (s := s) fun f hf => ?_⟩
    have hfamily : f.family = .texture := by simpa using List.all_eq_true.1 h f hf
    simp [hfamily]
  | light l =>
    refine ⟨_, (stage_emitAll fun f hf => ?_).trans (stage_take (s := s) (c := .light) nofun)⟩
    rcases List.mem_append.1 hf with hf | hf
    · obtain ⟨file, -, rfl⟩ := List.mem_map.1 hf
      nofun
    · obtain rfl := List.mem_singleton.1 hf
      nofun
  | emission c =>
    have hbind := stage_rebind (stage_take (s := s) (c := .emission) nofun)
      { s.graphics with emission := s.counters.next .emission }
    cases c with
    | none => exact ⟨_, hbind⟩
    | some radiance => exact ⟨_, (stage_emit (f := .emission _ radiance) nofun).trans hbind⟩
  | nothing | place t | nameSystem name | camera c | beginWorld | bindMaterial name | flip =>
    exact ⟨_, rfl⟩
  | endWorld | openScope | closeScope | beginObject name | endObject | drawObject records | shape plan =>
    cases h

theorem stage_pop (s : State α) :
    s.pop.stage =
      { s.stage with graphics := s.saved.headD s.graphics, saved := s.saved.tail } := by
  unfold pop
  split
  · rename_i h
    simp only [stage, h, List.headD_nil, List.tail_nil]
  · rename_i h
    simp only [stage, h, List.headD_cons, List.tail_cons]
    rfl

theorem stage_drawEntity (s : State α) (p : Placed α) : (s.drawEntity p).stage = s.stage.draw [p] := by
  have hentities := entities_write (s.take .shape).2 (.fragment (.entity (s.counters.next .shape) p))
  unfold stage
  rw [show (s.drawEntity p).entities = _ from hentities]
  rfl

variable [Scalar α]

theorem stage_drawRecords (records : List (Placed α)) (s : State α) :
    (s.drawRecords records).stage =
      s.stage.draw (records.map fun p => p.at_ (s.stage.graphics.transform * p.binding.transform)) := by
  have draw (t : Transform α) (ps : List (Placed α)) (s : State α) :
      (ps.foldl (fun s p => s.drawEntity (p.at_ (t * p.binding.transform))) s).stage =
        s.stage.draw (ps.map fun p => p.at_ (t * p.binding.transform)) := by
    induction ps generalizing s with
    | nil => simp [Stage.draw, Placed.named]
    | cons p ps ih =>
      rw [List.foldl_cons, ih, stage_drawEntity, Stage.draw_append]
      rfl
  exact draw _ records s

theorem stage_addShape (shape : Shape) (s : State α) :
    (s.addShape shape).stage = s.stage.addShape shape := by
  unfold addShape Stage.addShape
  cases h : s.openObject with
  | none =>
    simp only [stage_drawEntity, show s.stage.openObject = none from h]
    rfl
  | some o =>
    simp only [show s.stage.openObject = some o from h]
    simp only [stage, h]
    rfl

theorem stage_addPlan (plan : ShapePlan) (s : State α) :
    (s.addPlan plan).stage = s.stage.addShape (plan.shape (s.counters.next .mesh)) := by
  have mesh (source : String → MeshSource) : (s.addMesh source).2.stage = s.stage := by
    let name := s.counters.next .mesh
    refine (stage_emit (f := .mesh name (source name)) nofun).trans ?_
    exact stage_take (s := s) (c := .mesh) nofun
  cases plan with
  | sphere radius => exact stage_addShape _ s
  | inline m =>
    exact (stage_addShape _ _).trans (congrArg (Stage.addShape · _) (mesh fun _ => .inline m))
  | existing file =>
    exact (stage_addShape _ _).trans (congrArg (Stage.addShape · _) (mesh fun _ => .existing file))
  | separate m =>
    refine (stage_addShape _ _).trans ?_
    exact congrArg (Stage.addShape · _) (mesh fun name => .separate (meshFile name))

theorem stage_commit (options : Options) (s : State α) {c : Change α}
    (h : c.deed (s.counters.next .mesh) = .keeps → c.isPlain = true) :
    (c.commit options s).stage =
      s.stage.after (c.commit options s).graphics (c.deed (s.counters.next .mesh)) := by
  have plain (hplain : c.isPlain = true) : (c.commit options s).stage =
      { s.stage with graphics := (c.commit options s).graphics } := by
    obtain ⟨g, hg⟩ := stage_commit_of_isPlain options s hplain
    rw [hg, show (c.commit options s).graphics = g from congrArg Stage.graphics hg]
  cases c with
  | openScope | endWorld | beginObject name => rfl
  | closeScope => exact stage_pop s
  | endObject => exact congrArg (fun x : Stage α => { x with openObject := none }) (stage_pop s)
  | drawObject records => exact stage_drawRecords _ s
  | shape plan => exact stage_addPlan plan s
  | _ => exact plain (h rfl)

/-! ## Directives -/

/-- What a statement of the file `source` does, if it includes no file. -/
def deed (ctx : Context) (source : Path) (s : State α) (st : Statement) : Deed α :=
  match (s.survey ctx source st).1 with
  | .ok v => v.change.deed (s.counters.next .mesh)
  | .error _ => .keeps

section

variable {ctx : Context} {source : Path} {s : State α} {st : Statement}

theorem deed_openScope (h : Action.ofWord st.word = .attributeBegin ∨
    Action.ofWord st.word = .transformBegin) : s.deed ctx source st = .opens := by
  rw [deed, survey_openScope h]
  rfl

theorem deed_closeScope (h : Action.ofWord st.word = .attributeEnd ∨
      Action.ofWord st.word = .transformEnd) :
    s.deed ctx source st = if s.saved.isEmpty then .keeps else .closes := by
  rw [deed, survey_closeScope h]
  cases s.saved.isEmpty <;> rfl

theorem deed_endWorld (h : Action.ofWord st.word = .worldEnd) : s.deed ctx source st = .closesAll := by
  obtain ⟨items, hworld⟩ := survey_endWorld ctx source s h
  rw [deed, hworld]
  rfl

theorem deed_beginObject (h : Action.ofWord st.word = .objectBegin) :
    s.deed ctx source st = st.text?.elim .keeps .begins := by
  rw [deed, survey_beginObject h]
  cases st.text? <;> rfl

theorem deed_endObject (h : Action.ofWord st.word = .objectEnd) : s.deed ctx source st = .ends := by
  rw [deed, survey_endObject h]
  rfl

theorem deed_drawObject (ctx : Context) (source : Path) (s : State α)
    (h : Action.ofWord st.word = .objectInstance) :
    s.deed ctx source st = .keeps ∨ ∃ name records, st.text? = some name ∧ s.openObject = none ∧
      s.objects.get? name = some records ∧ s.deed ctx source st = .draws records.toList := by
  rw [deed, survey_drawObject h]
  cases hname : st.text? with
  | none => exact .inl rfl
  | some name =>
    cases hskip : ctx.options.skipInstances with
    | true => exact .inl rfl
    | false =>
      cases hopen : s.openObject with
      | some o => exact .inl rfl
      | none =>
        cases hrecords : s.objects.get? name with
        | none => exact .inl (by simp [hrecords])
        | some records => exact .inr ⟨name, records, rfl, rfl, hrecords, by simp [hrecords]; rfl⟩

theorem deed_shape (ctx : Context) (source : Path) (s : State α) (h : Action.ofWord st.word = .shape) :
    s.deed ctx source st = .keeps ∨ ∃ shape, s.deed ctx source st = .adds shape := by
  unfold deed
  cases hv : (s.survey ctx source st).1 with
  | error r => exact .inl rfl
  | ok v =>
    rcases (survey_shape h hv).2 with hc | ⟨plan, hc⟩
    · exact .inl (by simp only [hc, Change.deed])
    · exact .inr ⟨_, by simp only [hc, Change.deed]; rfl⟩

theorem deed_of_isPlain (h : (Action.ofWord st.word).isPlain = true) :
    s.deed ctx source st = .keeps := by
  unfold deed
  cases hv : (s.survey ctx source st).1 with
  | error r => rfl
  | ok v =>
    have hplain := ((Verdict.modest_ofStatement ctx source h).gives _ v _ (Prod.ext hv rfl)).plain
    exact Change.deed_of_isPlain _ hplain

/-- What a statement can do, by the action that its word stands for. -/
inductive Does (s : State α) (st : Statement) : Action → Deed α → Prop
  | plain {a : Action} : a.isPlain = true → Does s st a .keeps
  | opensScope {a : Action} : a = .attributeBegin ∨ a = .transformBegin → Does s st a .opens
  | closesScope {a : Action} : a = .attributeEnd ∨ a = .transformEnd →
    Does s st a (if s.saved.isEmpty then .keeps else .closes)
  | endsWorld : Does s st .worldEnd .closesAll
  | beginsObject : Does s st .objectBegin (st.text?.elim .keeps .begins)
  | endsObject : Does s st .objectEnd .ends
  | drawsNothing : Does s st .objectInstance .keeps
  | drawsObject {name : String} {records : Array (Placed α)} : st.text? = some name →
    s.openObject = none → s.objects.get? name = some records →
    Does s st .objectInstance (.draws records.toList)
  | addsNothing : Does s st .shape .keeps
  | addsShape (shape : Shape) : Does s st .shape (.adds shape)

theorem does_deed (ctx : Context) (source : Path) (s : State α) (st : Statement) :
    s.Does st (Action.ofWord st.word) (s.deed ctx source st) := by
  cases hplain : (Action.ofWord st.word).isPlain with
  | true =>
    rw [deed_of_isPlain hplain]
    exact .plain hplain
  | false =>
    cases ha : Action.ofWord st.word <;> rw [ha] at hplain <;>
      try exact absurd hplain.symm Bool.false_ne_true
    case attributeBegin =>
      rw [deed_openScope (.inl ha)]
      exact .opensScope (.inl rfl)
    case transformBegin =>
      rw [deed_openScope (.inr ha)]
      exact .opensScope (.inr rfl)
    case attributeEnd =>
      rw [deed_closeScope (.inl ha)]
      exact .closesScope (.inl rfl)
    case transformEnd =>
      rw [deed_closeScope (.inr ha)]
      exact .closesScope (.inr rfl)
    case worldEnd =>
      rw [deed_endWorld ha]
      exact .endsWorld
    case objectBegin =>
      rw [deed_beginObject ha]
      exact .beginsObject
    case objectEnd =>
      rw [deed_endObject ha]
      exact .endsObject
    case objectInstance =>
      obtain hd | ⟨name, records, hname, hopen, hrecords, hd⟩ := deed_drawObject ctx source s ha
      · exact hd ▸ .drawsNothing
      · exact hd ▸ .drawsObject hname hopen hrecords
    case shape =>
      obtain hd | ⟨shape, hd⟩ := deed_shape ctx source s ha
      · exact hd ▸ .addsNothing
      · exact hd ▸ .addsShape shape

theorem isPlain_of_keeps {v : Verdict α} (hv : (s.survey ctx source st).1 = .ok v)
    (h : v.change.deed (s.counters.next .mesh) = .keeps) : v.change.isPlain = true := by
  cases hplain : (Action.ofWord st.word).isPlain with
  | true => exact ((Verdict.modest_ofStatement ctx source hplain).gives _ v _ (Prod.ext hv rfl)).plain
  | false =>
    have hstaged := staged_of_survey hplain hv
    generalize Action.ofWord st.word = a, v.change = c, v.problem = q at hstaged h ⊢
    cases hstaged with
    | nothing => rfl
    | _ => cases h

omit [Scalar α] in
theorem nextMesh_recordAll (items : List Finding) (s : State α) :
    (items.foldl record s).counters.next .mesh = s.counters.next .mesh := by
  induction items generalizing s with
  | nil => rfl
  | cons x items ih =>
    rw [List.foldl_cons, ih]
    cases x <;> rfl

theorem stage_apply (ctx : Context) (source : Path) (s : State α) (st : Statement) :
    (s.apply ctx source st).stage =
      s.stage.after (s.apply ctx source st).graphics (s.deed ctx source st) := by
  rw [apply_eq_conclude, deed]
  have hstage := stage_recordAll (s.survey ctx source st).2.items.toList (s.moveTo source st.line)
  have hmesh := nextMesh_recordAll (s.survey ctx source st).2.items.toList (s.moveTo source st.line)
  generalize (s.survey ctx source st).2.items.toList.foldl record (s.moveTo source st.line) = t
    at hstage hmesh
  have hst : t.stage = s.stage := hstage
  cases hv : (s.survey ctx source st).1 with
  | error r =>
    have hrefused : (t.conclude ctx.options (.error r)).stage = t.stage := by cases r <;> rfl
    rw [show (t.conclude ctx.options (.error r)).graphics = t.stage.graphics from
      congrArg Stage.graphics hrefused, hrefused, hst]
    rfl
  | ok v =>
    obtain ⟨j, hj⟩ := conclude_ok ctx.options t v
    have hnext : s.counters.next .mesh = t.counters.next .mesh := hmesh.symm
    rw [hj, hnext, ← hst]
    exact stage_commit ctx.options t fun h => isPlain_of_keeps hv (by rw [hnext]; exact h)

end

end State

namespace Moment

variable {α : Type} [Scalar α]

def deed (ctx : Context) (m : Moment α) : Deed α :=
  match m.event with
  | .fault _ => .keeps
  | .statement st =>
    if Action.ofWord st.word = .include_ then .keeps else m.state.deed ctx m.source st

theorem stage_behind (ctx : Context) (m : Moment α) :
    (m.behind ctx).stage = m.state.stage.after (m.behind ctx).graphics (m.deed ctx) := by
  have keeps {t : State α} (h : t.stage = m.state.stage) :
      t.stage = m.state.stage.after t.graphics .keeps := by
    rw [h, show t.graphics = m.state.stage.graphics from congrArg Stage.graphics h]
    rfl
  unfold behind deed
  cases m.event with
  | fault f => exact keeps rfl
  | statement st =>
    dsimp only
    split
    · split
      · exact keeps rfl
      · exact keeps (State.stage_mention _ _ _)
      · exact keeps (State.stage_enterFile _ _ _)
    · exact State.stage_apply ctx m.source m.state st

end Moment

end SceneConvert
