import SceneConvert.Proofs.Geometry.Exact
import SceneConvert.Proofs.Run.History
import SceneConvert.Proofs.Run.Rejection
import SceneConvert.Proofs.Run.Scene

/-!
# SceneConvert.Proofs.Run.Placement

In exact arithmetic, no state remembers a transform with a wrong inverse.

* `State.Consistent`: all transforms that a state remembers are consistent.
* `Change.Consistent`, `Verdict.consistent_ofStatement`: so are those that directives come up with.
* `Consistent.apply`, `Moment.consistent_behind`: one step.
* `State.Reachable`: what becomes of a state that scenes begin with, directive by directive.
  `Runs.reachable`: all that a run goes through.
* `State.consistent_of_reachable`: the result.
-/

namespace SceneConvert

open Survey Transform

variable {K : Type} [ExactScalar K]

/-! ## Dictionaries -/

namespace Dictionary

variable {κ β : Type} [BEq κ] [LawfulBEq κ] {d : Dictionary κ β} {name : κ} {value : β}

theorem mem_of_get? (h : d.get? name = some value) : (name, value) ∈ d.entries := by
  obtain ⟨before, after, hentries, -⟩ := List.lookup_eq_some_iff.1 h
  rw [hentries]
  exact List.mem_append_right before List.mem_cons_self

omit [LawfulBEq κ] in
theorem forall_mem_set {P : κ × β → Prop} (hvalue : P (name, value)) (h : ∀ e ∈ d.entries, P e) :
    ∀ e ∈ (d.set name value).entries, P e :=
  List.forall_mem_cons.2 ⟨hvalue, fun e he => h e (List.mem_of_mem_filter he)⟩

end Dictionary

/-! ## States and changes -/

namespace State

/-- The inverses of all transforms that the state remembers are right. -/
structure Consistent (s : State K) : Prop where
  current : s.graphics.transform.Consistent
  saved : ∀ g ∈ s.saved, g.transform.Consistent
  systems : ∀ e ∈ s.coordinateSystems.entries, e.2.Consistent
  base : ∀ o, s.openObject = some o → o.base.Consistent
  records : ∀ e ∈ s.objects.entries, ∀ p ∈ e.2, p.binding.transform.Consistent
  camera : ∀ c, s.camera = some c → c.cameraToWorld.Consistent

end State

def Change.Consistent : Change K → Prop
  | place t => t.Consistent
  | camera c => ∀ x, c = some x → x.cameraToWorld.Consistent
  | _ => True

/-! ## Directives -/

namespace Verdict

variable {s : State K} {st : Statement}

def Consistent (v : Verdict K) : Prop := v.change.Consistent

theorem gives_require {β : Type} {P : β → Prop} {p : Problem} {b? : Option β}
    (h : ∀ b, b? = some b → P b) : Gives (require p b?) P := by
  cases b? with
  | none => exact gives_refuse p
  | some b => exact gives_pure (h b rfl)

theorem gives_attempt {β : Type} {m : Survey β} {P : β → Prop} (h : Gives m P) :
    Gives m.attempt fun r => ∀ b, r = .ok b → P b := by
  refine ⟨fun f r g hr b hb => ?_⟩
  rw [outcome_attempt, hb] at hr
  rcases hm : m.outcome f with ⟨(p | _) | b', g'⟩ <;> rw [hm] at hr <;> cases hr
  exact h.gives f b g hm

theorem gives_further (hs : s.Consistent) {t : Transform K} (ht : t.Consistent) :
    Gives (accept (.place (s.graphics.transform * t))) Consistent := gives_pure (hs.current.mul ht)

theorem gives_matrix (singular : Problem) :
    Gives (matrix st singular : Survey (Transform K)) Transform.Consistent :=
  gives_then fun _ => gives_require fun _ => consistent_ofColumnMajor?

theorem gives_coordSysTransform (hs : s.Consistent) : Gives (coordSysTransform s st) Consistent := by
  refine gives_then fun name => gives_bind (gives_require fun t ht => ?_) fun t ht => gives_pure ht
  exact hs.systems (name, t) (Dictionary.mem_of_get? ht)

theorem gives_perspective {t : Transform K} (ht : t.Consistent) :
    Gives (perspective t) fun c => c.cameraToWorld.Consistent := by
  refine gives_then fun fieldOfView => gives_if (gives_refuse _) (gives_then fun frameAspect => ?_)
  have rest : Gives (do
      let lensRadius ← number? "lensradius"
      let focalDistance ← number? "focaldistance"
      return { cameraToWorld := t, fieldOfView, frameAspect := frameAspect.filter fun a => Binary32.ofInt 0 < a,
               lensRadius, focalDistance }) fun c : Camera K => c.cameraToWorld.Consistent :=
    gives_then fun _ => gives_then fun _ => gives_pure ht
  cases frameAspect with
  | none => exact rest
  | some aspect => exact gives_when (fun _ => rest) rest

theorem gives_camera (hs : s.Consistent) (ctx : Context) : Gives (camera ctx s st) Consistent := by
  refine gives_then fun kind => gives_if (gives_pure nofun) ?_
  have camera : Gives (Survey.camera kind s.graphics.transform.inverse)
      fun c => c.cameraToWorld.Consistent := by
    unfold Survey.camera
    split
    · exact gives_perspective hs.current.inverse
    · exact gives_refuse _
  refine gives_bind (gives_attempt camera) fun c hc => ?_
  cases c with
  | error p => exact gives_pure nofun
  | ok c =>
    refine gives_then fun _ => gives_pure ?_
    intro x hx
    cases hx
    exact hc c rfl

theorem gives_acceptUsed_of {c : Change K} (h : c.Consistent) : Gives (acceptUsed c) Consistent :=
  gives_then fun _ => gives_pure h

theorem gives_consistent_material (ctx : Context) : Gives (material ctx s st) Consistent := by
  refine gives_then fun kind => gives_if (gives_pure trivial) (gives_if (gives_pure trivial) ?_)
  refine gives_then fun m => ?_
  cases m with
  | error p => exact gives_pure trivial
  | ok m => exact gives_acceptUsed_of trivial

theorem gives_consistent_areaLight (ctx : Context) : Gives (areaLight ctx s st) Consistent := by
  refine gives_then fun kind => gives_if (gives_pure trivial) (gives_then fun c => ?_)
  cases c with
  | error p => exact gives_pure trivial
  | ok c => exact gives_acceptUsed_of trivial

theorem gives_consistent_makeNamedMaterial (ctx : Context) :
    Gives (makeNamedMaterial ctx s st) Consistent := by
  refine gives_then fun name => gives_if (gives_pure trivial) (gives_then fun kind => ?_)
  exact gives_if (gives_refuse _) (gives_when
    (fun _ => gives_then fun _ => gives_acceptUsed_of trivial)
    (gives_then fun _ => gives_acceptUsed_of trivial))

theorem gives_consistent_beginObject : Gives (beginObject s st) Consistent := by
  refine gives_then fun name => ?_
  exact gives_when (fun _ => gives_if (gives_pure trivial) (gives_pure trivial))
    (gives_if (gives_pure trivial) (gives_pure trivial))

theorem gives_consistent_endObject : Gives (endObject s) Consistent :=
  gives_when (fun _ => gives_if (gives_pure trivial) (gives_pure trivial))
    (gives_if (gives_pure trivial) (gives_pure trivial))

theorem gives_consistent_endWorld : Gives (endWorld s) Consistent := by
  refine gives_then fun _ => ?_
  split <;> exact gives_pure trivial

/-- What directives come up with, in a consistent state. -/
theorem consistent_ofStatement (hs : s.Consistent) (ctx : Context) (source : Path) :
    Gives (ofStatement ctx s source st) Consistent := by
  unfold ofStatement
  cases Action.ofWord st.word
  case identity => exact gives_pure consistent_identity
  case translate => exact gives_then fun _ => gives_further hs (consistent_translate _)
  case rotate =>
    exact gives_then fun _ => gives_bind (gives_require fun _ => consistent_rotate?) fun _ => gives_further hs
  case scale =>
    exact gives_then fun _ => gives_bind (gives_require fun _ => consistent_scale?) fun _ => gives_further hs
  case lookAt =>
    exact gives_then fun _ => gives_bind (gives_require fun _ => consistent_lookAt?) fun _ => gives_further hs
  case transform => exact gives_bind (gives_matrix _) fun _ ht => gives_pure ht
  case concatTransform => exact gives_bind (gives_matrix _) fun _ => gives_further hs
  case coordSysTransform => exact gives_coordSysTransform hs
  case camera => exact gives_camera hs ctx
  case coordinateSystem | film | sampler | integrator | ignored =>
    exact gives_then fun _ => gives_pure trivial
  case worldEnd => exact gives_consistent_endWorld
  case attributeEnd | transformEnd => exact gives_if (gives_refuse _) (gives_pure trivial)
  case objectBegin => exact gives_consistent_beginObject
  case objectEnd => exact gives_consistent_endObject
  case objectInstance =>
    exact gives_then fun _ => gives_if (gives_pure trivial)
      (gives_if (gives_refuse _) (gives_then fun _ => gives_pure trivial))
  case material => exact gives_consistent_material ctx
  case makeNamedMaterial => exact gives_consistent_makeNamedMaterial ctx
  case namedMaterial =>
    exact gives_then fun _ => gives_if (gives_pure trivial)
      (gives_if (gives_pure trivial) (gives_refuse _))
  case texture =>
    exact gives_if (gives_pure trivial)
      (gives_then fun _ => gives_then fun _ => gives_then fun _ => gives_pure trivial)
  case lightSource | shape =>
    exact gives_then fun _ => gives_if (gives_pure trivial)
      (gives_then fun _ => gives_acceptUsed_of trivial)
  case areaLightSource => exact gives_consistent_areaLight ctx
  case unsupported | unknown => exact gives_refuse _
  case worldBegin | attributeBegin | transformBegin | reverseOrientation | include_ =>
    exact gives_pure trivial

end Verdict

/-! ## One step -/

namespace State

variable {s : State K}

theorem Consistent.emitAll (fs : List (Fragment K)) (h : s.Consistent) : (s.emitAll fs).Consistent := by
  induction fs generalizing s with
  | nil => exact h
  | cons f fs ih => exact ih { h with }

theorem Consistent.writeSettings (options : Options) (settings : List (SettingKey × Int))
    (h : s.Consistent) : (s.writeSettings options settings).Consistent := by
  unfold State.writeSettings
  split
  · exact h
  · induction settings generalizing s with
    | nil => exact h
    | cons setting settings ih => exact ih { h with }

theorem Consistent.drawRecords (records : List (Placed K)) (h : s.Consistent) :
    (s.drawRecords records).Consistent := by
  have draw (t : Transform K) (ps : List (Placed K)) {s : State K} (h : s.Consistent) :
      (ps.foldl (fun s p => s.drawEntity (p.at_ (t * p.binding.transform))) s).Consistent := by
    induction ps generalizing s with
    | nil => exact h
    | cons p ps ih => exact ih { h with }
  exact draw _ records h

theorem Consistent.pop (h : s.Consistent) : s.pop.Consistent := by
  unfold State.pop
  split
  · exact h
  · rename_i g rest hsaved
    have hall := List.forall_mem_cons.1 (hsaved ▸ h.saved)
    exact { h with current := hall.1, saved := hall.2 }

theorem Consistent.popAll (h : s.Consistent) : s.popAll.Consistent := by
  refine { h with current := ?_, saved := nofun }
  change (s.saved.getLast?.getD s.graphics).transform.Consistent
  cases hlast : s.saved.getLast? with
  | none => exact h.current
  | some g => exact h.saved g (List.mem_of_getLast? hlast)

/-- A shape is recorded where it is, seen from the start of the definition. -/
theorem Consistent.addShape (shape : Shape) (h : s.Consistent) : (s.addShape shape).Consistent := by
  unfold State.addShape
  cases ho : s.openObject with
  | none => exact { h with }
  | some o =>
    refine { h with
      base := fun o' ho' => h.base o' (ho.trans ho')
      records := Dictionary.forall_mem_set (fun p hp => ?_) h.records }
    rcases Array.mem_push.1 hp with hp | rfl
    · cases hr : s.objects.get? o.name with
      | none => simp [hr] at hp
      | some records =>
        rw [hr] at hp
        exact h.records _ (Dictionary.mem_of_get? hr) p hp
    · exact (h.base o ho).inverse.mul h.current

theorem Consistent.addPlan (plan : ShapePlan) (h : s.Consistent) : (s.addPlan plan).Consistent := by
  cases plan with
  | sphere radius => exact h.addShape _
  | inline m | existing file | separate m => exact Consistent.addShape _ { h with }

theorem Consistent.nameSystem (h : s.Consistent) (name : String) {t : Transform K} (ht : t.Consistent) :
    (s.nameSystem name t).Consistent :=
  { h with systems := Dictionary.forall_mem_set ht h.systems }

theorem Consistent.commit (options : Options) (h : s.Consistent) {c : Change K} (hc : c.Consistent) :
    (c.commit options s).Consistent := by
  cases c with
  | nothing => exact h
  | place t => exact { h with current := hc }
  | nameSystem name => exact h.nameSystem name h.current
  | camera c =>
    refine { h.nameSystem "camera" h.current.inverse with camera := fun x hx => ?_ }
    cases c with
    | none => exact h.camera x hx
    | some c => exact hc x hx
  | film width height => exact Consistent.writeSettings _ _ { h with }
  | setting key value => exact h.writeSettings _ _
  | beginWorld =>
    have hplaced : (s.place identity).Consistent := { h with current := consistent_identity }
    exact hplaced.nameSystem "world" consistent_identity
  | endWorld => exact { h.popAll with base := nofun }
  | openScope => exact { h with saved := List.forall_mem_cons.2 ⟨h.current, h.saved⟩ }
  | closeScope => exact h.pop
  | beginObject name =>
    refine { h with
      saved := List.forall_mem_cons.2 ⟨h.current, h.saved⟩
      records := Dictionary.forall_mem_set (fun p hp => by simp at hp) h.records
      base := fun o ho => ?_ }
    cases ho
    exact h.current
  | endObject => exact { h.pop with base := nofun }
  | drawObject records => exact h.drawRecords _
  | freshMaterial m => cases m <;> exact { h with }
  | texture name fragments => exact { h.emitAll fragments with }
  | light l => exact Consistent.emitAll _ { h with }
  | emission c => cases c <;> exact { h with }
  | shape plan => exact h.addPlan plan
  | bindMaterial name | namedMaterial name m | flip => exact { h with }

theorem Consistent.recordAll (items : List Finding) (h : s.Consistent) :
    (items.foldl record s).Consistent := by
  induction items generalizing s with
  | nil => exact h
  | cons x items ih => cases x <;> exact ih { h with }

theorem Consistent.conclude (options : Options) (h : s.Consistent)
    {r : Except Refusal (Verdict K)} (hr : ∀ v, r = .ok v → v.Consistent) :
    (s.conclude options r).Consistent := by
  cases r with
  | error r => cases r <;> exact { h with }
  | ok v =>
    have hcommit := h.commit options (hr v rfl)
    obtain ⟨j, hj⟩ := conclude_ok options s v
    rw [hj]
    exact { hcommit with }

theorem Consistent.apply (h : s.Consistent) (ctx : Context) (source : Path) (st : Statement) :
    (s.apply ctx source st).Consistent := by
  have hmoved : (s.moveTo source st.line).Consistent := { h with }
  rw [apply_eq_conclude]
  refine (hmoved.recordAll _).conclude _ fun v hv => ?_
  exact (Verdict.consistent_ofStatement hmoved ctx source).gives _ v _ (Prod.ext hv rfl)

theorem Consistent.enterFile (h : s.Consistent) (ctx : Context) (file : IncludedFile) :
    (s.enterFile ctx file).2.Consistent := by
  unfold State.enterFile
  dsimp only
  split <;> exact { h with }

theorem Consistent.leaveFile (h : s.Consistent) (before : State K) (file : IncludedFile)
    (output : Option Path) : (s.leaveFile before file output).Consistent := by
  cases output <;> exact { h with }

theorem Consistent.mention (h : s.Consistent) (path : Path) (output : Option Path) :
    (s.mention path output).Consistent := by
  cases output <;> exact { h with }

theorem Consistent.finish (h : s.Consistent) : s.finish.Consistent := by
  have closed : s.closeObject.Consistent := by
    unfold State.closeObject
    split
    · exact h
    · exact { h with base := nofun }
  unfold State.finish State.writeCamera
  split
  · exact h
  · split
    · exact closed
    · exact { closed with }

theorem consistent_opening (ctx : Context) (scene : Scene) : (scene.opening ctx : State K).Consistent := by
  have initial : (State.opening ctx : State K).Consistent :=
    ⟨consistent_identity, nofun, nofun, nofun, nofun, nofun⟩
  cases scene with
  | text t => exact initial
  | input => exact { initial with }

end State

theorem Moment.consistent_behind {m : Moment K} (h : m.state.Consistent) (ctx : Context) :
    (m.behind ctx).Consistent := by
  unfold Moment.behind
  split
  · exact { h with }
  · rename_i st _
    have hmoved : (m.state.moveTo m.source st.line).Consistent := { h with }
    dsimp only
    split
    · split
      · exact { h with }
      · exact hmoved.mention _ _
      · exact hmoved.enterFile ctx _
    · exact h.apply ctx _ _

/-! ## Runs -/

/-- What becomes of the state that a scene begins with, whatever directives come, accepted or refused. -/
inductive State.Reachable {α : Type} [Scalar α] (ctx : Context) : State α → Prop
  | opening (scene : Scene) : Reachable ctx (scene.opening ctx)
  | behind {m : Moment α} : Reachable ctx m.state → Reachable ctx (m.behind ctx)
  | leaveFile {s : State α} (before : State α) (file : IncludedFile) (output : Option Path) :
    Reachable ctx s → Reachable ctx (s.leaveFile before file output)
  | finish {s : State α} : Reachable ctx s → Reachable ctx s.finish

theorem Runs.reachable {α : Type} [Scalar α] {ctx : Context} {source : Path} {stack : List Path}
    {events : List Event} {s t : State α} {ms : List (Moment α)}
    (h : Runs ctx source stack events s ms t) (hs : s.Reachable ctx) :
    (∀ m ∈ ms, m.state.Reachable ctx) ∧ t.Reachable ctx := by
  induction h with
  | nil | halted => exact ⟨List.forall_mem_nil _, hs⟩
  | @tick source stack event _ s _ _ _ _ htick _ ih =>
    have hbehind : ((⟨s, source, stack, event⟩ : Moment α).behind ctx).Reachable ctx := .behind hs
    rw [htick.behind] at hbehind
    obtain ⟨hms, ht⟩ := ih hbehind
    exact ⟨List.forall_mem_cons.2 ⟨hs, hms⟩, ht⟩
  | @enter source stack st _ s _ _ file _ _ _ hst hi _ _ ihwithin ih =>
    have hbehind : ((⟨s, source, stack, .statement st⟩ : Moment α).behind ctx).Reachable ctx := .behind hs
    simp only [Moment.behind, if_pos hst, hi] at hbehind
    obtain ⟨hwithin, hinner⟩ := ihwithin hbehind
    obtain ⟨hms, ht⟩ := ih (.leaveFile _ file _ hinner)
    exact ⟨List.forall_mem_cons.2 ⟨hs, List.forall_mem_append.2 ⟨hwithin, hms⟩⟩, ht⟩

theorem State.reachable_ofScene {α : Type} [Scalar α] {ctx : Context} {scene : Scene} {s : State α}
    (h : ofScene ctx scene = .ok s) : s.Reachable ctx := by
  obtain ⟨text, -, rfl⟩ := exists_read_of_ofScene h
  obtain ⟨ms, hms⟩ := exists_runs ctx ctx.input [ctx.files.absolute ctx.input]
    (Event.ofText ctx.options.collapseLists text) (scene.opening ctx : State α)
  exact .finish (hms.reachable (.opening scene)).2

/-- The inverses of all transforms that a conversion remembers are right. -/
theorem State.consistent_of_reachable {ctx : Context} {s : State K} (h : s.Reachable ctx) :
    s.Consistent := by
  induction h with
  | opening scene => exact consistent_opening ctx scene
  | behind _ ih => exact Moment.consistent_behind ih ctx
  | leaveFile before file output _ ih => exact ih.leaveFile before file output
  | finish _ ih => exact ih.finish

/-- The state behind a translation, in real numbers. -/
theorem State.consistent_translated :
    let m : Moment ℝ := ⟨opening Conversion.solitary, Conversion.solitary.input, [], .statement
      ⟨1, "Translate", some (.list [.integer 1, .integer 2, .integer 3]), .empty⟩⟩
    let s := m.behind Conversion.solitary
    s.Reachable Conversion.solitary ∧
      s.graphics.transform = Transform.identity * Transform.translate
        (.ofFloats (Binary32.ofInt 1) (Binary32.ofInt 2) (Binary32.ofInt 3)) ∧
      s.Consistent := by
  intro m s
  have hreachable : s.Reachable Conversion.solitary := .behind (.opening (.text ""))
  exact ⟨hreachable, rfl, consistent_of_reachable hreachable⟩

end SceneConvert
