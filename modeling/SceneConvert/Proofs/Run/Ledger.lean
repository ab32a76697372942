import SceneConvert.Proofs.Document.EntryLines
import SceneConvert.Proofs.Run.Changes
import SceneConvert.Proofs.Run.Policy
import SceneConvert.Proofs.Survey.Makers

/-!
# SceneConvert.Proofs.Run.Ledger

What directives add up to for good, whatever scopes and files they stand in.

* `Ledger`, `State.ledger`: the camera, the film, the materials and the meshes with files of their own.
* `Ledger.after`, `State.ledger_commit`: what a change makes of it.
* `Scene.Passes.ledger`: the ledger at the end of a conversion.
-/

namespace SceneConvert

variable {α : Type}

/-- What no scope takes back. -/
structure Ledger (α : Type) where
  camera : Option (Camera α)
  filmAspect : Option Float32
  materials : List String
  /-- How many fresh names of materials are taken. -/
  anonymous : Nat
  /-- The meshes with files of their own, in order. -/
  meshes : List TriangleMesh
  /-- The entries about a camera. -/
  shots : List (Entry α)

namespace Ledger

def empty : Ledger α := ⟨none, none, [], 0, [], []⟩

def declare (x : Ledger α) (name : String) : Ledger α :=
  { x with materials := if x.materials.contains name then x.materials else name :: x.materials }

def after (x : Ledger α) : Change α → Ledger α
  | .camera c => { x with camera := c <|> x.camera }
  | .film width height => { x with filmAspect := some (Binary32.ofInt width / Binary32.ofInt height) }
  | .freshMaterial none => { x with anonymous := x.anonymous + 1 }
  | .freshMaterial (some _) =>
    ({ x with anonymous := x.anonymous + 1 } : Ledger α).declare (Counter.material.name x.anonymous)
  | .namedMaterial name _ => x.declare name
  | .shape (.separate m) => { x with meshes := x.meshes ++ [m] }
  | _ => x

theorem mem_declare {x : Ledger α} {name n : String} :
    n ∈ (x.declare name).materials ↔ n ∈ x.materials ∨ n = name := by
  unfold declare
  dsimp only
  split
  · rename_i h
    have hname : name ∈ x.materials := by simpa using h
    exact ⟨.inl, fun h => h.elim id fun h => h ▸ hname⟩
  · rw [List.mem_cons, or_comm]

end Ledger

namespace State

def ledger (s : State α) : Ledger α :=
  ⟨s.camera, s.filmAspect, s.materials, s.counters.material, s.meshes.toList.map SeparateMesh.mesh,
    s.entries.filter Entry.isCamera⟩

/-! ## What leaves the ledger alone -/

theorem ledger_write (s : State α) {e : Entry α} (h : e.isCamera = false) :
    (s.write e).ledger = s.ledger := by
  have hshots : (s.write e).entries.filter Entry.isCamera = s.entries.filter Entry.isCamera := by
    rw [entries_write, List.filter_append]
    simp [h]
  unfold ledger
  rw [hshots]
  rfl

theorem ledger_take (s : State α) {c : Counter} (h : c ≠ .material) : (s.take c).2.ledger = s.ledger := by
  cases c <;> first | rfl | exact absurd rfl h

theorem ledger_emit (s : State α) {f : Fragment α} (h : f.family ≠ .camera) :
    (s.emit f).ledger = s.ledger :=
  s.ledger_write (by cases f <;> first | rfl | exact absurd rfl h)

theorem ledger_emitAll {fs : List (Fragment α)} (h : ∀ f ∈ fs, f.family ≠ .camera) (s : State α) :
    (s.emitAll fs).ledger = s.ledger := by
  unfold emitAll
  induction fs generalizing s with
  | nil => rfl
  | cons f fs ih =>
    rw [List.foldl_cons, ih fun g hg => h g (List.mem_cons_of_mem f hg)]
    exact s.ledger_emit (h f List.mem_cons_self)

theorem ledger_drawEntity (s : State α) (p : Placed α) : (s.drawEntity p).ledger = s.ledger :=
  ledger_emit (s.take .shape).2 (f := .entity _ p) nofun

theorem ledger_writeSettings (s : State α) (options : Options) (settings : List (SettingKey × Int)) :
    (s.writeSettings options settings).ledger = s.ledger := by
  unfold writeSettings
  split
  · rfl
  · induction settings generalizing s with
    | nil => rfl
    | cons x settings ih => exact (ih _).trans (s.ledger_write rfl)

theorem ledger_pop (s : State α) : s.pop.ledger = s.ledger := by
  unfold pop
  split <;> rfl

theorem inert_ledger : Inert (ledger : State α → Ledger α) where
  note _ _ := rfl
  moveTo _ _ _ := rfl
  spectrum s p := ledger_emit { s with counters := s.counters.add 1 .spectrum } nofun
  mention s path output := by
    cases output with
    | none => rfl
    | some output => exact ledger_write (s.remark (.includeRepeated path)) rfl
  enterFile ctx s file := by
    unfold enterFile
    dsimp only
    split <;> rfl
  leaveFile inner before file output := by
    cases output with
    | none => rfl
    | some output => exact ledger_write _ rfl
  halt _ := rfl

/-! ## Changes -/

variable [Scalar α]

theorem ledger_drawRecords (records : List (Placed α)) (s : State α) :
    (s.drawRecords records).ledger = s.ledger := by
  have draw (t : Transform α) (ps : List (Placed α)) (s : State α) :
      (ps.foldl (fun s p => s.drawEntity (p.at_ (t * p.binding.transform))) s).ledger = s.ledger := by
    induction ps generalizing s with
    | nil => rfl
    | cons p ps ih => exact (ih _).trans (s.ledger_drawEntity _)
  exact draw _ records s

theorem ledger_addShape (s : State α) (shape : Shape) : (s.addShape shape).ledger = s.ledger := by
  unfold addShape
  split
  · exact s.ledger_drawEntity _
  · rfl

omit [Scalar α] in
theorem ledger_addMesh (s : State α) (source : String → MeshSource) :
    (s.addMesh source).2.ledger = s.ledger :=
  ledger_emit (s.take .mesh).2 (f := .mesh _ _) nofun

theorem ledger_addPlan (s : State α) (plan : ShapePlan) :
    (s.addPlan plan).ledger = s.ledger.after (.shape plan) := by
  cases plan with
  | sphere radius => exact s.ledger_addShape _
  | inline m => exact (ledger_addShape _ _).trans (s.ledger_addMesh fun _ => .inline m)
  | existing file => exact (ledger_addShape _ _).trans (s.ledger_addMesh fun _ => .existing file)
  | separate m =>
    let name := s.counters.next .mesh
    let t := (s.addMesh fun name => .separate (meshFile name)).2
    have ht : t.ledger = s.ledger := s.ledger_addMesh _
    have hpush : ({ t with meshes := t.meshes.push ⟨meshFile name, m⟩ } : State α).ledger =
        t.ledger.after (.shape (.separate m)) := by
      simp [ledger, Ledger.after, entries]
    exact (ledger_addShape _ _).trans (hpush.trans (congrArg (Ledger.after · _) ht))

theorem ledger_commit (options : Options) (s : State α) {c : Change α} {a : Action}
    {operand : Option String} (h : c.DeclaredBy a operand) :
    (c.commit options s).ledger = s.ledger.after c := by
  cases c with
  | film width height | setting key value => exact ledger_writeSettings _ options _
  | endObject | closeScope => exact s.ledger_pop
  | drawObject records => exact ledger_drawRecords _ s
  | shape plan => exact s.ledger_addPlan plan
  | freshMaterial m =>
    cases m with
    | none => rfl
    | some m =>
      let fresh := (s.take .material).2.bindMaterial (s.counters.next .material)
      exact congrArg (Ledger.declare · _) (fresh.ledger_emit (f := .material _ m) nofun)
  | namedMaterial name m =>
    exact congrArg (Ledger.declare · _) (s.ledger_emit (f := .material name m) nofun)
  | texture name fragments =>
    refine ledger_emitAll (fun f hf => ?_) s
    have hfamily : f.family = .texture := by simpa using List.all_eq_true.1 h.2.2.all_family f hf
    simp [hfamily]
  | light l =>
    refine (ledger_emitAll (fun f hf => ?_) _).trans (s.ledger_take nofun)
    rcases List.mem_append.1 hf with hf | hf
    · obtain ⟨file, -, rfl⟩ := List.mem_map.1 hf
      nofun
    · obtain rfl := List.mem_singleton.1 hf
      nofun
  | emission radiance =>
    cases radiance with
    | none => exact s.ledger_take nofun
    | some radiance =>
      let fresh := (s.take .emission).2.bindEmission (s.counters.next .emission)
      exact (fresh.ledger_emit (f := .emission _ radiance) nofun).trans (s.ledger_take nofun)
  | _ => rfl

end State

/-! ## Moments -/

variable [Scalar α] {ctx : Context}

/-- A change other than none is that of a directive that was not refused, and belongs to it. -/
theorem Moment.exists_of_change {m : Moment α} {c : Change α} (h : m.change ctx = c) (hc : c ≠ .nothing) :
    ∃ st v g, m.event = .statement st ∧ Action.ofWord st.word ≠ .include_ ∧
      m.state.survey ctx m.source st = (.ok v, g) ∧ v.change = c ∧ c.MadeBy (Action.ofWord st.word) := by
  unfold change at h
  cases hevent : m.event with
  | fault f =>
    rw [hevent] at h
    exact absurd h.symm hc
  | statement st =>
    rw [hevent] at h
    dsimp only at h
    split at h
    · exact absurd h.symm hc
    · rename_i hst
      rcases hsurvey : m.state.survey ctx m.source st with ⟨r | v, g⟩
      · rw [hsurvey] at h
        exact absurd h.symm hc
      · rw [hsurvey] at h
        have hmade : v.change.MadeBy (Action.ofWord st.word) :=
          (Verdict.madeBy_ofStatement m.source).gives _ v g hsurvey
        exact ⟨st, v, g, rfl, hst, hsurvey, h, h ▸ hmade⟩

theorem Moment.madeBy_change (ctx : Context) {m : Moment α} {st : Statement} (hevent : m.event = .statement st) :
    (m.change ctx).MadeBy (Action.ofWord st.word) := by
  cases hc : m.change ctx with
  | nothing => trivial
  | _ =>
    obtain ⟨st', v, g, hevent', -, -, -, hmade⟩ := Moment.exists_of_change hc nofun
    rw [hevent] at hevent'
    cases hevent'
    exact hmade

theorem Moment.ledger_commit (m : Moment α) (u : State α) :
    ((m.change ctx).commit ctx.options u).ledger = u.ledger.after (m.change ctx) := by
  unfold change
  cases m.event with
  | fault f => rfl
  | statement st =>
    dsimp only
    split
    · rfl
    · exact State.ledger_commit _ u (State.declaredBy_change ctx m.source m.state st)

theorem Moment.ledger_behind (m : Moment α) :
    (m.behind ctx).ledger = m.state.ledger.after (m.change ctx) := by
  obtain ⟨u, hu, hbehind⟩ := State.inert_ledger.behind ctx m
  rw [hbehind, m.ledger_commit, hu]

/-- The ledger of a conversion has what its directives add to it, one after the other. -/
theorem Scene.Passes.ledger {scene : Scene} {ms : List (Moment α)} {t : State α}
    (h : scene.Passes ctx ms t) :
    t.ledger = ms.foldl (fun x m => x.after (m.change ctx)) .empty :=
  State.inert_ledger.passes Moment.ledger_commit h

end SceneConvert
