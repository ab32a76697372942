import SceneConvert.Proofs.Run.Entered
import SceneConvert.Proofs.Survey.Outcome

/-!
# SceneConvert.Proofs.Run.Output

The output of a state is a part that no directive looks at. All a directive does to it is writing
entries, and which ones does not depend on it.

* `Output`, `State.onto`: the part, and a state with another one in its place.
* `WritesAt`: at a state, an operation writes some entries, which include nothing, and leaves the rest
  of the output alone.
* `writesAt_apply`, `Tick.output`: a directive writes, and so does every event that enters no file.
-/

namespace SceneConvert

/-- The file that an entry includes. -/
def Entry.included? {α : Type} : Entry α → Option Path
  | include_ p => some p
  | setting .. | activeCamera | fragment _ => none

/-- What a state knows of the files it has written and is writing. -/
structure Output (α : Type) where
  page : Array (Entry α)
  pageDepth : Nat
  written : Array (Writing α)
  finished : Array (Page α)
  outputNames : Dictionary Path Nat
  included : Dictionary Path (Option Path)

namespace Output

variable {α : Type}

/-- One more entry, the journal having `said` notes. -/
def write (o : Output α) (e : Entry α) (said : Nat) : Output α :=
  { o with page := o.page.push e, written := o.written.push ⟨e, o.pageDepth, said⟩ }

def writeAll (o : Output α) (ws : List (Entry α × Nat)) : Output α :=
  ws.foldl (fun o w => o.write w.1 w.2) o

@[simp] theorem writeAll_nil (o : Output α) : o.writeAll [] = o := rfl

@[simp] theorem writeAll_append (o : Output α) (ws ws' : List (Entry α × Nat)) :
    o.writeAll (ws ++ ws') = (o.writeAll ws).writeAll ws' := List.foldl_append

theorem writeAll_eq (o : Output α) (ws : List (Entry α × Nat)) :
    o.writeAll ws =
      { o with
        page := o.page ++ (ws.map Prod.fst).toArray
        written := o.written ++ (ws.map fun w => ⟨w.1, o.pageDepth, w.2⟩).toArray } := by
  induction ws generalizing o with
  | nil => simp
  | cons w ws ih =>
    rw [writeAll, List.foldl_cons, ← writeAll, ih]
    simp [write]

end Output

namespace State

variable {α : Type}

def output (s : State α) : Output α :=
  ⟨s.page, s.pageDepth, s.written, s.finished, s.outputNames, s.included⟩

def onto (s : State α) (o : Output α) : State α :=
  { s with
    page := o.page, pageDepth := o.pageDepth, written := o.written, finished := o.finished
    outputNames := o.outputNames, included := o.included }

@[simp] theorem onto_output (s : State α) : s.onto s.output = s := rfl

@[simp] theorem output_onto (s : State α) (o : Output α) : (s.onto o).output = o := rfl

@[simp] theorem onto_onto (s : State α) (o o' : Output α) : (s.onto o).onto o' = s.onto o' := rfl

/-- At the state `s`, the operation writes some entries, the same to every output. None of them
includes a file. -/
def WritesAt (op : State α → State α) (s : State α) : Prop :=
  ∃ ws, (∀ w ∈ ws, w.1.included? = none) ∧ ∀ o, op (s.onto o) = (op s).onto (o.writeAll ws)

theorem WritesAt.of_nothing {op : State α → State α} {s : State α}
    (h : ∀ o, op (s.onto o) = (op s).onto o) : WritesAt op s :=
  ⟨[], fun _ hw => absurd hw List.not_mem_nil, h⟩

theorem WritesAt.of_entry {op : State α → State α} {s : State α} (e : Entry α)
    (he : e.included? = none) (h : ∀ o, op (s.onto o) = (op s).onto (o.write e s.journal.size)) :
    WritesAt op s :=
  ⟨[(e, s.journal.size)], fun _ hw => List.mem_singleton.1 hw ▸ he, h⟩

/-- An operation that does the same at the outputs of a state. -/
theorem WritesAt.congr {f g : State α → State α} {s : State α} (hf : WritesAt f s)
    (h : ∀ o, g (s.onto o) = f (s.onto o)) : WritesAt g s := by
  obtain ⟨ws, hplain, hws⟩ := hf
  have hself : g s = f s := h s.output
  exact ⟨ws, hplain, fun o => by rw [h, hself, hws]⟩

theorem WritesAt.comp {f g : State α → State α} {s : State α} (hf : WritesAt f s)
    (hg : WritesAt g (f s)) : WritesAt (fun s => g (f s)) s := by
  obtain ⟨ws, hplain, hf⟩ := hf
  obtain ⟨ws', hplain', hg⟩ := hg
  refine ⟨ws ++ ws', fun w hw => (List.mem_append.1 hw).elim (hplain w) (hplain' w), fun o => ?_⟩
  dsimp only
  rw [hf, hg, Output.writeAll_append]

theorem WritesAt.foldl {β : Type} {step : State α → β → State α}
    (h : ∀ s b, WritesAt (step · b) s) (bs : List β) (s : State α) :
    WritesAt (fun s => bs.foldl step s) s := by
  induction bs generalizing s with
  | nil => exact .of_nothing fun _ => rfl
  | cons b bs ih => exact (h s b).comp (ih (step s b))

theorem WritesAt.output {op : State α → State α} {s : State α} (h : WritesAt op s) :
    ∃ ws, (op s).output = s.output.writeAll ws := by
  obtain ⟨ws, -, h⟩ := h
  refine ⟨ws, ?_⟩
  have hs := congrArg State.output (h s.output)
  simpa using hs

theorem writesAt_note (n : Note) (s : State α) : WritesAt (·.note n) s := .of_nothing fun _ => rfl

theorem writesAt_remark (r : Remark) (s : State α) : WritesAt (·.remark r) s :=
  writesAt_note (.remark r) s

theorem writesAt_reportProblem (p : Problem) (s : State α) : WritesAt (·.reportProblem p) s :=
  .of_nothing fun _ => rfl

theorem writesAt_write {e : Entry α} (he : e.included? = none) (s : State α) :
    WritesAt (·.write e) s := .of_entry e he fun _ => rfl

theorem writesAt_emit (f : Fragment α) (s : State α) : WritesAt (·.emit f) s :=
  writesAt_write rfl s

theorem writesAt_emitAll (fs : List (Fragment α)) (s : State α) : WritesAt (·.emitAll fs) s :=
  .foldl (fun s f => writesAt_emit f s) fs s

theorem writesAt_drawEntity (p : Placed α) (s : State α) : WritesAt (·.drawEntity p) s :=
  .of_entry (.fragment (.entity (s.counters.next .shape) p)) rfl fun _ => rfl

theorem writesAt_drawRecords [Scalar α] (ps : List (Placed α)) (s : State α) :
    WritesAt (·.drawRecords ps) s := by
  let t := s.graphics.transform
  have draw : WritesAt
      (fun s => ps.foldl (fun s p => s.drawEntity (p.at_ (t * p.binding.transform))) s) s :=
    .foldl (fun s p => writesAt_drawEntity _ s) ps s
  obtain ⟨ws, h⟩ := draw
  exact ⟨ws, h⟩

theorem writesAt_writeSettings (options : Options) (settings : List (SettingKey × Int))
    (s : State α) : WritesAt (·.writeSettings options settings) s := by
  unfold writeSettings
  split
  · exact .of_nothing fun _ => rfl
  · exact .foldl (fun s _ => writesAt_write rfl s) settings s

theorem writesAt_addMaterial (name : String) (m : Material) (s : State α) :
    WritesAt (·.addMaterial name m) s :=
  .of_entry (.fragment (.material name m)) rfl fun _ => rfl

theorem writesAt_addLight (source : LightSource α) (s : State α) :
    WritesAt (·.addLight source) s := by
  have fragments := writesAt_emitAll
    ((source.map.toList.map fun file => Fragment.map (mapName (s.counters.next .light)) file) ++
      [.light (s.counters.next .light) source.light]) (s.take .light).2
  obtain ⟨ws, h⟩ := fragments
  exact ⟨ws, h⟩

theorem writesAt_addMesh (source : String → MeshSource) (s : State α) :
    WritesAt (fun s => (s.addMesh source).2) s :=
  .of_entry (.fragment (.mesh (s.counters.next .mesh) (source (s.counters.next .mesh)))) rfl fun _ => rfl

theorem writesAt_record (f : Finding) (s : State α) : WritesAt (·.record f) s := by
  cases f with
  | remark r => exact writesAt_remark r s
  | problem p => exact writesAt_reportProblem p s
  | spectrum p =>
    exact .of_entry (.fragment (.spectrum p.name p.wavelengths p.values)) rfl fun _ => rfl

theorem writesAt_closeObject (s : State α) : WritesAt closeObject s := by
  cases h : s.openObject with
  | none =>
    refine .of_nothing ?_
    intro o
    have ho : (s.onto o).openObject = none := h
    simp only [closeObject, h, ho]
  | some object =>
    refine .of_nothing ?_
    intro o
    have ho : (s.onto o).openObject = some object := h
    simp only [closeObject, h, ho]
    rfl

theorem writesAt_writeCamera (s : State α) : WritesAt writeCamera s := by
  cases h : s.camera with
  | none =>
    refine .of_nothing ?_
    intro o
    have ho : (s.onto o).camera = none := h
    simp only [writeCamera, h, ho]
  | some c =>
    have writes : WritesAt (fun s' => (s'.write .activeCamera).emit (.camera c (s.aspect c))) s :=
      (writesAt_write rfl s).comp (writesAt_emit _ _)
    refine writes.congr ?_
    intro o
    have ho : (s.onto o).camera = some c := h
    simp only [writeCamera, ho]
    rfl

theorem writesAt_finish (s : State α) : WritesAt finish s := by
  cases h : s.halted with
  | true =>
    refine .of_nothing ?_
    intro o
    have ho : (s.onto o).halted = true := h
    simp only [finish, h, ho]
    rfl
  | false =>
    refine ((writesAt_closeObject s).comp (writesAt_writeCamera s.closeObject)).congr ?_
    intro o
    have ho : (s.onto o).halted = false := h
    simp only [finish, ho]
    rfl

theorem finished_finish (s : State α) : s.finish.finished = s.finished := by
  obtain ⟨ws, hws⟩ := (writesAt_finish s).output
  rw [Output.writeAll_eq] at hws
  exact congrArg Output.finished hws

variable [Scalar α]

theorem writesAt_addShape (shape : Shape) (s : State α) : WritesAt (·.addShape shape) s := by
  cases h : s.openObject with
  | none =>
    refine (writesAt_drawEntity ⟨shape, s.graphics.binding⟩ s).congr fun o => ?_
    have ho : (s.onto o).openObject = none := h
    simp only [addShape, ho]
    rfl
  | some object =>
    refine .of_nothing ?_
    intro o
    have ho : (s.onto o).openObject = some object := h
    simp only [addShape, h, ho]
    rfl

theorem writesAt_addPlan (plan : ShapePlan) (s : State α) : WritesAt (·.addPlan plan) s := by
  have shape (s' : State α) := writesAt_addShape (.mesh (s.counters.next .mesh)) s'
  cases plan with
  | sphere radius => exact writesAt_addShape (.sphere radius) s
  | inline m =>
    obtain ⟨ws, h⟩ := (writesAt_addMesh (fun _ => .inline m) s).comp (shape _)
    exact ⟨ws, h⟩
  | existing file =>
    obtain ⟨ws, h⟩ := (writesAt_addMesh (fun _ => .existing file) s).comp (shape _)
    exact ⟨ws, h⟩
  | separate m =>
    let keep (s' : State α) : State α :=
      { s' with meshes := s'.meshes.push ⟨meshFile (s.counters.next .mesh), m⟩ }
    have keeps (s' : State α) : WritesAt keep s' := .of_nothing fun _ => rfl
    obtain ⟨ws, h⟩ :=
      ((writesAt_addMesh (fun name => .separate (meshFile name)) s).comp (keeps _)).comp (shape _)
    exact ⟨ws, h⟩

theorem writesAt_commit (options : Options) (change : Change α) (s : State α) :
    WritesAt (change.commit options) s := by
  cases change with
  | film width height =>
    have settings := writesAt_writeSettings options [(.filmWidth, width), (.filmHeight, height)]
      { s with filmAspect := some (Binary32.ofInt width / Binary32.ofInt height) }
    obtain ⟨ws, h⟩ := settings
    exact ⟨ws, h⟩
  | setting key value => exact writesAt_writeSettings options _ s
  | drawObject records => exact writesAt_drawRecords records.toList s
  | freshMaterial m =>
    cases m with
    | none => exact .of_nothing fun _ => rfl
    | some m =>
      exact .of_entry (.fragment (.material (s.counters.next .material) m)) rfl fun _ => rfl
  | namedMaterial name m => exact writesAt_addMaterial name m s
  | texture name fragments =>
    have declares (s' : State α) : WritesAt (·.declareTexture name) s' :=
      .of_nothing fun _ => rfl
    exact (writesAt_emitAll fragments s).comp (declares _)
  | light source => exact writesAt_addLight source s
  | emission radiance =>
    cases radiance with
    | none => exact .of_nothing fun _ => rfl
    | some c =>
      exact .of_entry (.fragment (.emission (s.counters.next .emission) c)) rfl fun _ => rfl
  | shape plan => exact writesAt_addPlan plan s
  | closeScope =>
    cases h : s.saved <;> exact .of_nothing fun o => by simp [Change.commit, pop, onto, h]
  | endObject =>
    cases h : s.saved <;> exact .of_nothing fun o => by simp [Change.commit, pop, onto, h]
  | _ => exact .of_nothing fun _ => rfl

theorem writesAt_conclude (options : Options) (result : Except Refusal (Verdict α)) (s : State α) :
    WritesAt (·.conclude options result) s := by
  match result with
  | .error (.problem p) => exact writesAt_reportProblem p s
  | .error .overflow => exact .of_nothing fun _ => rfl
  | .ok v =>
    have remarks := (writesAt_commit options v.change s).comp
      (.foldl (fun s r => writesAt_remark r s) v.afterwards _)
    cases h : v.problem with
    | none => exact remarks.congr fun o => by simp only [conclude, h]
    | some p =>
      exact (remarks.comp (writesAt_reportProblem p _)).congr fun o => by simp only [conclude, h]

theorem survey_onto (ctx : Context) (source : Path) (s : State α) (o : Output α) (st : Statement) :
    (s.onto o).survey ctx source st = s.survey ctx source st := rfl

theorem writesAt_apply (ctx : Context) (source : Path) (s : State α) (st : Statement) :
    WritesAt (·.apply ctx source st) s := by
  have found : WritesAt (fun s' => (s.survey ctx source st).2.items.toList.foldl record s')
      (s.moveTo source st.line) := .foldl (fun s' f => writesAt_record f s') _ _
  obtain ⟨ws, hplain, h⟩ := found.comp (writesAt_conclude ctx.options (s.survey ctx source st).1 _)
  refine ⟨ws, hplain, fun o => ?_⟩
  dsimp only
  rw [apply_eq_conclude, apply_eq_conclude, survey_onto]
  exact h o

end State

theorem Tick.output {α : Type} [Scalar α] {ctx : Context} {source : Path} {stack : List Path}
    {event : Event} {s t : State α} (h : Tick ctx source stack event s t) :
    ∃ ws, t.output = s.output.writeAll ws := by
  cases h with
  | fault f => exact (State.writesAt_note _ s).output
  | @refused _ st p _ _ => exact (State.writesAt_reportProblem p (s.moveTo source st.line)).output
  | @repeated _ st path output _ _ =>
    cases output with
    | none => exact (State.writesAt_remark _ (s.moveTo source st.line)).output
    | some output => exact ⟨[(.include_ output, (s.remark (.includeRepeated path)).journal.size)], rfl⟩
  | @directive _ st _ => exact (State.writesAt_apply ctx source s st).output

end SceneConvert
