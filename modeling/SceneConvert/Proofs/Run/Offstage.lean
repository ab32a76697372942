import SceneConvert.Proofs.Run.Bare
import SceneConvert.Proofs.Run.Stage

/-!
# SceneConvert.Proofs.Run.Offstage

What directives do apart from drawing and recording shapes.

* `Action.isInner`, `Change.isInner`: what has to do neither with objects nor with the end of the world.
* `State.offstage`: the state without entities and objects.
* `offstage_commit`, `survey_offstage`: what such a directive does to it depends on nothing else.
* `offstage_apply`: so two states that are the same offstage stay so.
-/

namespace SceneConvert

/-- A directive that neither defines nor draws an object, includes no file, and does not end the world. -/
def Action.isInner : Action → Bool
  | objectBegin | objectEnd | objectInstance | worldEnd | include_ => false
  | _ => true

def Change.isInner {α : Type} : Change α → Bool
  | endWorld | beginObject _ | endObject | drawObject _ => false
  | texture _ fragments => fragments.all fun f => f.family = .texture
  | _ => true

theorem Change.isInner_of_isPlain {α : Type} {c : Change α} (h : c.isPlain = true) : c.isInner = true := by
  cases c <;> first | exact h | rfl

def Entry.isOffstage {α : Type} (e : Entry α) : Bool := e.entity?.isNone

namespace State

variable {α : Type}

/-- The state without entities, the number of their names, and objects. -/
def offstage (s : State α) : State α :=
  { s.bare with
    objects := {}
    openObject := none
    counters := { s.counters with shape := 0 }
    page := s.page.filter Entry.isOffstage
    written := s.bare.written.filter fun w => w.entry.isOffstage }

/-! ## Changes -/

theorem offstage_write (s : State α) {e : Entry α} (h : e.isOffstage = true) :
    (s.write e).offstage = s.offstage.write e := by
  simp [offstage, bare, write, h]

theorem offstage_emit (s : State α) {f : Fragment α} (h : f.family ≠ .entity) :
    (s.emit f).offstage = s.offstage.emit f :=
  offstage_write s (by rw [Entry.isOffstage, Entry.entity?_of_family h]; rfl)

theorem offstage_emitAll {fs : List (Fragment α)} (h : ∀ f ∈ fs, f.family ≠ .entity) (s : State α) :
    (s.emitAll fs).offstage = s.offstage.emitAll fs := by
  induction fs generalizing s with
  | nil => rfl
  | cons f fs ih =>
    refine (ih (fun x hx => h x (List.mem_cons_of_mem f hx)) (s.emit f)).trans ?_
    exact congrArg (emitAll · fs) (offstage_emit s (h f List.mem_cons_self))

theorem offstage_writeSettings (s : State α) (options : Options) (settings : List (SettingKey × Int)) :
    (s.writeSettings options settings).offstage = s.offstage.writeSettings options settings := by
  unfold writeSettings
  split
  · rfl
  · induction settings generalizing s with
    | nil => rfl
    | cons setting settings ih =>
      exact (ih (s.write _)).trans (congrArg (settings.foldl _ ·) (offstage_write s rfl))

theorem offstage_pop (s : State α) : s.pop.offstage = s.offstage.pop := by
  cases h : s.saved with
  | nil =>
    have hoff : s.offstage.saved = [] := h
    simp only [pop, h, hoff]
  | cons g rest =>
    have hoff : s.offstage.saved = g :: rest := h
    simp only [pop, h, hoff]
    rfl

theorem offstage_drawEntity (s : State α) (p : Placed α) : (s.drawEntity p).offstage = s.offstage := by
  simp [drawEntity, emit, offstage, bare, write, take, Counters.add, Entry.isOffstage, Entry.entity?]

theorem offstage_addMesh (s : State α) (source : String → MeshSource) :
    (s.addMesh source).2.offstage = (s.offstage.addMesh source).2 :=
  offstage_emit (f := .mesh _ _) (s.take .mesh).2 nofun

variable [Scalar α]

theorem offstage_drawRecords (records : List (Placed α)) (s : State α) :
    (s.drawRecords records).offstage = s.offstage := by
  have draw (t : Transform α) (s : State α) :
      (records.foldl (fun s p => s.drawEntity (p.at_ (t * p.binding.transform))) s).offstage =
        s.offstage := by
    induction records generalizing s with
    | nil => rfl
    | cons p records ih => exact (ih _).trans (offstage_drawEntity s _)
  exact draw _ s

theorem offstage_addShape (s : State α) (shape : Shape) : (s.addShape shape).offstage = s.offstage := by
  unfold addShape
  dsimp only
  split
  · exact offstage_drawEntity s _
  · rfl

omit [Scalar α] in
/-- The mesh of a shape, without the shape. -/
def addPlannedMesh (s : State α) : ShapePlan → State α
  | .sphere _ => s
  | .inline m => (s.addMesh fun _ => .inline m).2
  | .existing file => (s.addMesh fun _ => .existing file).2
  | .separate m =>
    let (name, s) := s.addMesh fun name => .separate (meshFile name)
    { s with meshes := s.meshes.push ⟨meshFile name, m⟩ }

theorem offstage_addPlan (s : State α) (plan : ShapePlan) :
    (s.addPlan plan).offstage = s.offstage.addPlannedMesh plan := by
  refine Eq.trans (b := (s.addPlannedMesh plan).offstage) ?_ ?_
  · cases plan <;> exact offstage_addShape _ _
  · cases plan with
    | sphere radius => rfl
    | inline m | existing file => exact offstage_addMesh s _
    | separate m =>
      let keep (t : State α) : State α :=
        { t with meshes := t.meshes.push ⟨meshFile (s.counters.next .mesh), m⟩ }
      exact congrArg keep (offstage_addMesh s fun name => .separate (meshFile name))

/-- What a change by an inner directive does offstage is determined by what is there. -/
theorem offstage_commit (options : Options) {s t : State α} (h : s.offstage = t.offstage) {c : Change α}
    (hc : c.isInner = true) : (c.commit options s).offstage = (c.commit options t).offstage := by
  have same (hsame : ∀ s : State α, (c.commit options s).offstage = c.commit options s.offstage) :
      (c.commit options s).offstage = (c.commit options t).offstage := by rw [hsame, hsame, h]
  cases c with
  | film width height => exact same fun s => offstage_writeSettings _ options _
  | setting key value => exact same fun s => offstage_writeSettings s options _
  | closeScope => exact same offstage_pop
  | freshMaterial m =>
    refine same fun s => ?_
    cases m with
    | none => rfl
    | some m =>
      exact congrArg (declareMaterial · (s.counters.next .material))
        (offstage_emit (f := .material _ m) ((s.take .material).2.bindMaterial _) nofun)
  | namedMaterial name m =>
    exact same fun s =>
      congrArg (declareMaterial · name) (offstage_emit (f := .material name m) s nofun)
  | texture name fragments =>
    refine same fun s => congrArg (declareTexture · name) (offstage_emitAll (fun f hf => ?_) s)
    have hfamily : f.family = .texture := by simpa using List.all_eq_true.1 hc f hf
    simp [hfamily]
  | light l =>
    refine same fun s => offstage_emitAll (fun f hf => ?_) _
    rcases List.mem_append.1 hf with hf | hf
    · obtain ⟨file, -, rfl⟩ := List.mem_map.1 hf
      nofun
    · obtain rfl := List.mem_singleton.1 hf
      nofun
  | emission c =>
    refine same fun s => ?_
    cases c with
    | none => rfl
    | some c => exact offstage_emit (f := .emission _ c) _ nofun
  | shape plan =>
    exact (offstage_addPlan s plan).trans
      ((congrArg (addPlannedMesh · plan) h).trans (offstage_addPlan t plan).symm)
  | endWorld | beginObject name | endObject | drawObject records => cases hc
  | _ => exact same fun s => rfl

/-! ## Directives -/

theorem offstage_conclude (options : Options) {s t : State α} (h : s.offstage = t.offstage)
    {result : Except Refusal (Verdict α)} (hresult : ∀ v, result = .ok v → v.change.isInner = true) :
    (s.conclude options result).offstage = (t.conclude options result).offstage := by
  match result with
  | .error (.problem p) => exact h
  | .error .overflow => exact congrArg (fun u : State α => { u with halted := true }) h
  | .ok v =>
    obtain ⟨j, hj⟩ := conclude_ok options s v
    obtain ⟨k, hk⟩ := conclude_ok options t v
    rw [hj, hk]
    exact offstage_commit options h (hresult v rfl)

omit [Scalar α] in
theorem offstage_recordAll (items : List Finding) {s t : State α} (h : s.offstage = t.offstage) :
    (items.foldl record s).offstage = (items.foldl record t).offstage := by
  induction items generalizing s t with
  | nil => exact h
  | cons x items ih =>
    refine ih ?_
    cases x with
    | remark r => exact h
    | problem p => exact h
    | spectrum p =>
      let named (u : State α) : State α := { u with counters := u.counters.add 1 .spectrum }
      refine (offstage_emit (f := .spectrum _ _ _) (named s) nofun).trans (Eq.trans ?_
        (offstage_emit (f := .spectrum _ _ _) (named t) nofun).symm)
      exact congrArg (fun u => (named u).emit _) h

variable {ctx : Context} {source : Path} {st : Statement}

theorem inner_of_survey {s : State α} {v : Verdict α} (h : (Action.ofWord st.word).isInner = true)
    (hv : (s.survey ctx source st).1 = .ok v) : v.change.isInner = true := by
  cases hplain : (Action.ofWord st.word).isPlain with
  | true =>
    have hmodest := (Verdict.modest_ofStatement ctx source hplain).gives _ v _ (Prod.ext hv rfl)
    exact Change.isInner_of_isPlain hmodest.plain
  | false =>
    cases ha : Action.ofWord st.word <;> rw [ha] at hplain h <;>
      try first | exact absurd hplain.symm Bool.false_ne_true | exact absurd h Bool.false_ne_true
    case attributeBegin | transformBegin =>
      rw [survey_openScope (by simp [ha])] at hv
      cases hv
      rfl
    case attributeEnd | transformEnd =>
      rw [survey_closeScope (by simp [ha])] at hv
      split at hv <;> cases hv
      rfl
    case shape =>
      rcases (survey_shape ha hv).2 with hc | ⟨plan, hc⟩ <;> rw [hc] <;> rfl

theorem survey_offstage (hlog : ctx.log = none) (h : (Action.ofWord st.word).isInner = true)
    (s : State α) : s.survey ctx source st = s.offstage.survey ctx source st := by
  have hverdict : Verdict.ofStatement ctx s.bare source st.lineless =
      Verdict.ofStatement ctx s.offstage.bare source st.lineless := by
    unfold Verdict.ofStatement
    rw [show st.lineless.word = st.word from rfl]
    cases ha : Action.ofWord st.word <;> rw [ha] at h <;>
      first | rfl | exact absurd h Bool.false_ne_true
  have hbare (s : State α) : Verdict.ofStatement ctx s.bare source st.lineless =
      Verdict.ofStatement ctx s source st := Verdict.ofStatement_bare hlog rfl s st
  unfold survey
  rw [← hbare, ← hbare]
  change (Verdict.ofStatement ctx s.bare source st.lineless).outcome _ =
    (Verdict.ofStatement ctx s.offstage.bare source st.lineless).outcome _
  rw [hverdict]
  rfl

theorem survey_eq_of_offstage (hlog : ctx.log = none) (h : (Action.ofWord st.word).isInner = true)
    {s t : State α} (hst : s.offstage = t.offstage) :
    s.survey ctx source st = t.survey ctx source st := by
  rw [survey_offstage hlog h s, survey_offstage hlog h t, hst]

/-- What an inner directive does offstage depends on nothing else. -/
theorem offstage_apply (hlog : ctx.log = none) (h : (Action.ofWord st.word).isInner = true)
    {s t : State α} (hst : s.offstage = t.offstage) :
    (s.apply ctx source st).offstage = (t.apply ctx source st).offstage := by
  rw [apply_eq_conclude, apply_eq_conclude, survey_eq_of_offstage hlog h hst]
  have hmoved : (s.moveTo source st.line).offstage = (t.moveTo source st.line).offstage := hst
  exact offstage_conclude ctx.options (offstage_recordAll _ hmoved) fun v hv => inner_of_survey h hv

end State

end SceneConvert
