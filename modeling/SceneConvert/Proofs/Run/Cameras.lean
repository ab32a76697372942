import Mathlib
import SceneConvert.Proofs.Run.Ledger
import SceneConvert.Proofs.Run.Pages

/-!
# SceneConvert.Proofs.Run.Cameras

The camera of the output.

* `Moment.camera?`, `Moment.film?`: the camera and the size of the film that a directive gives.
* `Scene.Passes.camera`, `Scene.Passes.filmAspect`: what is remembered of them is what the last one gave.
* `State.shot`, `State.isCamera_pages`: the entries of the camera at the end of the scene; there are no
  others.
* `Conversion.closing`: what these entries should look like. `closing_transform`: which matrix they have.
* `Conversion.camera_last`: where the camera is in the output, and what it is.
-/

namespace SceneConvert

variable {α : Type}

/-! ## Changes -/

def Change.camera? : Change α → Option (Camera α)
  | camera c => c
  | _ => none

def Change.film? : Change α → Option (Int × Int)
  | film width height => some (width, height)
  | _ => none

/-- What a change makes of the camera and the film. It writes no camera. -/
theorem Ledger.camera_after (x : Ledger α) (c : Change α) :
    (x.after c).camera = (c.camera? <|> x.camera) ∧
      (x.after c).filmAspect =
        ((c.film?.map fun size => Binary32.ofInt size.1 / Binary32.ofInt size.2) <|> x.filmAspect) ∧
      (x.after c).shots = x.shots := by
  cases c with
  | freshMaterial m => cases m <;> exact ⟨rfl, rfl, rfl⟩
  | shape plan => cases plan <;> exact ⟨rfl, rfl, rfl⟩
  | _ => exact ⟨rfl, rfl, rfl⟩

/-! ## Directives -/

section

variable [Scalar α] {ctx : Context} {m : Moment α} {st : Statement}

/-- The camera that a directive gives, seen through the inverse of the current transform. -/
def Moment.camera? (ctx : Context) (m : Moment α) : Option (Camera α) :=
  match m.event with
  | .fault _ => none
  | .statement st =>
    if Action.ofWord st.word = .camera ∧ ctx.options.skipCamera = false then
      st.text?.bind fun kind =>
        (Camera.ofKind m.state.graphics.transform.inverse kind st.parameters.value?).toOption
    else none

omit [Scalar α] in
/-- A camera has the matrices of the current transform, each in the place of the other one. -/
theorem Moment.cameraToWorld_of_camera? {c : Camera α} (h : m.camera? ctx = some c) :
    c.cameraToWorld.matrix = m.state.graphics.transform.inverseMatrix ∧
      c.cameraToWorld.inverseMatrix = m.state.graphics.transform.matrix := by
  have hplace (kind : String) (values : String → Option Value) (t : Transform α)
      (h : (Camera.ofKind t kind values).toOption = some c) : c.cameraToWorld = t := by
    unfold Camera.ofKind Camera.described at h
    dsimp only at h
    split at h
    · split at h <;> cases h
      rfl
    · cases h
  unfold camera? at h
  split at h
  · cases h
  · split at h
    · obtain ⟨kind, -, hkind⟩ := Option.bind_eq_some_iff.1 h
      rw [hplace kind _ _ hkind]
      exact ⟨rfl, rfl⟩
    · cases h

/-- The size of the film that a directive gives. -/
def Moment.film? (m : Moment α) : Option (Int × Int) :=
  match m.event with
  | .fault _ => none
  | .statement st =>
    if Action.ofWord st.word = .film then (resolution st.parameters.value?).toOption else none

theorem Moment.camera?_cases (ctx : Context) (hevent : m.event = .statement st)
    (h : Action.ofWord st.word = .camera) :
    (m.camera? ctx = none ∧ (m.change ctx).camera? = none ∧
      ¬(ctx.options.skipCamera = false ∧ m.Accepts ctx st)) ∨
    ∃ c, m.camera? ctx = some c ∧ (m.change ctx).camera? = some c ∧ ctx.options.skipCamera = false ∧
      m.Accepts ctx st := by
  have hplace : (m.state.moveTo m.source st.line).graphics = m.state.graphics := rfl
  rw [Moment.accepts_of_reads (Verdict.reads_camera h) hevent,
    Moment.change_of_reads (Verdict.reads_camera h) hevent (by simp [h]), camera?, hevent, hplace]
  dsimp only
  cases st.text? with
  | none => simp [Except.toOption, Change.camera?]
  | some kind =>
    cases ctx.options.skipCamera with
    | true => simp [Except.toOption, Change.camera?]
    | false =>
      cases hc : Camera.ofKind m.state.graphics.transform.inverse kind st.parameters.value? <;>
        simp [h, hc, Except.toOption, Change.camera?]

/-- A directive gives a camera exactly where it is a camera that is accepted and not left out. -/
theorem Moment.isSome_camera?_iff (hevent : m.event = .statement st)
    (h : Action.ofWord st.word = .camera) :
    (m.camera? ctx).isSome = true ↔ ctx.options.skipCamera = false ∧ m.Accepts ctx st := by
  obtain ⟨hnone, -, hnot⟩ | ⟨c, hc, -, haccepts⟩ := Moment.camera?_cases ctx hevent h
  · simp [hnone, hnot]
  · simp [hc, haccepts]

theorem Moment.isSome_film?_iff (hevent : m.event = .statement st) (h : Action.ofWord st.word = .film) :
    m.film?.isSome = true ↔ m.Accepts ctx st := by
  rw [Moment.accepts_of_reads (Verdict.reads_film h) hevent]
  unfold film?
  rw [hevent]
  cases hsize : resolution st.parameters.value? <;> simp [h, hsize, Except.toOption, Except.map]

theorem Moment.camera?_change : (m.change ctx).camera? = m.camera? ctx := by
  cases hevent : m.event with
  | fault f => simp [camera?, change, hevent, Change.camera?]
  | statement st =>
    by_cases h : Action.ofWord st.word = .camera
    · obtain ⟨hnone, hchange, -⟩ | ⟨c, hc, hchange, -⟩ := Moment.camera?_cases ctx hevent h
      · rw [hnone, hchange]
      · rw [hc, hchange]
    · have hnone : m.camera? ctx = none := by simp [camera?, hevent, h]
      have hmade := Moment.madeBy_change ctx hevent
      rw [hnone]
      cases hc : m.change ctx with
      | camera c =>
        rw [hc] at hmade
        exact absurd hmade h
      | _ => rfl

theorem Moment.film?_change : (m.change ctx).film? = m.film? := by
  cases hevent : m.event with
  | fault f => simp [film?, change, hevent, Change.film?]
  | statement st =>
    by_cases h : Action.ofWord st.word = .film
    · rw [Moment.change_of_reads (Verdict.reads_film h) hevent (by simp [h])]
      cases hsize : resolution st.parameters.value? <;>
        simp [film?, hevent, h, hsize, Except.toOption, Except.map, Change.film?]
    · have hnone : m.film? = none := by simp [film?, hevent, h]
      have hmade := Moment.madeBy_change ctx hevent
      rw [hnone]
      cases hc : m.change ctx with
      | film width height =>
        rw [hc] at hmade
        exact absurd hmade h
      | _ => rfl

/-! ## Runs -/

theorem foldl_orElse_eq_getLast? {β γ σ : Type} {after : σ → β → σ} {view : σ → Option γ}
    {give : β → Option γ} (h : ∀ x b, view (after x b) = (give b <|> view x)) (bs : List β) (x : σ) :
    view (bs.foldl after x) = ((bs.filterMap give).getLast? <|> view x) := by
  induction bs generalizing x with
  | nil => rfl
  | cons b bs ih =>
    rw [List.foldl_cons, ih, h, List.filterMap_cons]
    cases give b with
    | none => rfl
    | some c =>
      rw [List.getLast?_cons]
      cases (bs.filterMap give).getLast? <;> rfl

variable {scene : Scene} {ms : List (Moment α)} {t : State α}

theorem Scene.Passes.camera (h : scene.Passes ctx ms t) :
    t.camera = (ms.filterMap (Moment.camera? ctx)).getLast? := by
  have hafter (x : Ledger α) (m : Moment α) :
      (x.after (m.change ctx)).camera = (m.camera? ctx <|> x.camera) := by
    rw [(x.camera_after _).1, Moment.camera?_change]
  have hlast := foldl_orElse_eq_getLast? hafter ms .empty
  rw [← h.ledger] at hlast
  exact hlast.trans (by cases (ms.filterMap (Moment.camera? ctx)).getLast? <;> rfl)

theorem Scene.Passes.filmAspect (h : scene.Passes ctx ms t) :
    t.filmAspect = (ms.filterMap Moment.film?).getLast?.map
      fun size => Binary32.ofInt size.1 / Binary32.ofInt size.2 := by
  have hafter (x : Ledger α) (m : Moment α) : (x.after (m.change ctx)).filmAspect =
      (m.film?.map (fun size => Binary32.ofInt size.1 / Binary32.ofInt size.2) <|> x.filmAspect) := by
    rw [(x.camera_after _).2.1, Moment.film?_change]
  have hlast := foldl_orElse_eq_getLast? hafter ms .empty
  rw [← h.ledger, ← List.map_filterMap, List.getLast?_map] at hlast
  exact hlast.trans (by cases (ms.filterMap Moment.film?).getLast? <;> rfl)

theorem Scene.Passes.shots (h : scene.Passes ctx ms t) : t.entries.filter Entry.isCamera = [] := by
  have hshots (x : Ledger α) : (ms.foldl (fun x m => x.after (m.change ctx)) x).shots = x.shots := by
    clear h
    induction ms generalizing x with
    | nil => rfl
    | cons m ms ih => exact (ih _).trans (x.camera_after _).2.2
  exact (congrArg Ledger.shots h.ledger).trans (hshots .empty)

end

/-! ## The end of the scene -/

namespace State

/-- The entries of the camera of a state: the line that makes it the active one, and its form. -/
def shot (s : State α) : List (Entry α) :=
  match s.camera with
  | none => []
  | some c => [.activeCamera, .fragment (.camera c (s.aspect c))]

theorem shot_writeCamera (s : State α) :
    s.writeCamera.page.toList = s.page.toList ++ s.shot ∧ s.writeCamera.finished = s.finished ∧
      s.writeCamera.entries = s.entries ++ s.shot := by
  unfold writeCamera shot
  cases s.camera with
  | none => simp
  | some c => exact ⟨by simp [emit, write], rfl, by simp [emit, entries_write]⟩

theorem output_finish {s : State α} (h : s.halted = false) :
    s.finish.page.toList = s.page.toList ++ s.shot ∧ s.finish.finished = s.finished ∧
      s.finish.entries = s.entries ++ s.shot := by
  have hwrite := s.closeObject.shot_writeCamera
  unfold finish
  rw [if_neg (by simp [h])]
  unfold closeObject at hwrite ⊢
  cases ho : s.openObject with
  | none =>
    rw [ho] at hwrite
    exact hwrite
  | some o =>
    rw [ho] at hwrite
    exact hwrite

theorem isCamera_pages [Scalar α] {ctx : Context} {scene : Scene} {ms : List (Moment α)} {t : State α}
    (h : scene.Passes ctx ms t) (hgoesOn : t.halted = false) :
    (∀ e ∈ t.page.toList, e.isCamera = false) ∧
      ∀ page ∈ t.finished.toList, ∀ e ∈ page.entries, e.isCamera = false := by
  obtain ⟨hpage, hfinished, hentries⟩ := output_finish hgoesOn
  have hperm := (interleaves_ofScene (ofScene_iff_passes.2 ⟨ms, t, h, rfl⟩)).perm
  rw [State.pages, List.map_cons, hpage, hfinished, hentries, List.flatten_cons] at hperm
  have hfilter := (hperm.filter Entry.isCamera).length_eq
  simp only [List.filter_append, h.shots, List.nil_append, List.length_append] at hfilter
  have hown : t.page.toList.filter Entry.isCamera = [] := List.length_eq_zero_iff.1 (by omega)
  have hothers : (t.finished.toList.map Page.entries).flatten.filter Entry.isCamera = [] :=
    List.length_eq_zero_iff.1 (by omega)
  simp only [List.filter_eq_nil_iff, Bool.not_eq_true] at hown hothers
  exact ⟨hown, fun page hmem e he =>
    hothers e (List.mem_flatten_of_mem (List.mem_map_of_mem hmem) he)⟩

end State

namespace Conversion

/-- The text of the main file, from what is in the form of the scene. -/
def sceneText (ctx : Context) (blocks : List Block) : String :=
  renderLines ctx.options.indent
    (Block.lines.linesOf 0 (if ctx.options.skipWorld then blocks else [.form "scene" blocks]))

/-- What stands at the end of a scene that leads through these moments: the last camera that was given,
in a frame whose shape it says itself, or else the last film. -/
def closing (ctx : Context) (ms : List (Moment Float32)) : List Block :=
  match (ms.filterMap (Moment.camera? ctx)).getLast? with
  | none => []
  | some c =>
    let film := (ms.filterMap Moment.film?).getLast?.map fun (width, height) =>
      Binary32.ofInt width / Binary32.ofInt height
    let (width, height) := filmSize c.fieldOfView ((c.frameAspect <|> film).getD (Binary32.ofInt 1))
    [wordLine "camera" "Camera",
      .form "camera" ([wordLine "name" "Camera", wordLine "type" "standard",
        propertyLine "width" (Binary32.literal width), propertyLine "height" (Binary32.literal height)] ++
        c.lensRadius.toList.map (fun r => propertyLine "aperture_radius" (Binary32.literal r)) ++
        c.focalDistance.toList.map (fun d => propertyLine "focal_length" (Binary32.literal d)) ++
        [transformLine c.cameraToWorld])]

theorem map_block_shot {ctx : Context} {scene : Scene} {ms : List (Moment Float32)} {t : State Float32}
    (h : scene.Passes ctx ms t) : t.shot.map Entry.block = closing ctx ms := by
  unfold State.shot closing
  rw [← h.camera]
  cases t.camera with
  | none => rfl
  | some c =>
    dsimp only
    rw [← h.filmAspect]
    rfl

/-- The last line of the camera is the inverse of the transform that was current when it was given, row by
row. -/
theorem closing_transform {ctx : Context} {ms : List (Moment Float32)} (h : closing ctx ms ≠ []) :
    ∃ before m behind lines, ms = before ++ m :: behind ∧ (∀ m' ∈ behind, m'.camera? ctx = none) ∧
      closing ctx ms = [.line ":camera 'Camera'", .form "camera" (lines ++ [.line (":transform " ++
        Binary32.literalList m.state.graphics.transform.inverseMatrix.rowMajor)])] := by
  unfold closing at h ⊢
  cases hlast : (ms.filterMap (Moment.camera? ctx)).getLast? with
  | none => simp [hlast] at h
  | some c =>
    rw [List.getLast?_filterMap, List.findSome?_eq_some_iff] at hlast
    obtain ⟨behind, m, before, hms, hc, hbehind⟩ := hlast
    have hrows : c.cameraToWorld.rowMajor = m.state.graphics.transform.inverseMatrix.rowMajor :=
      congrArg Matrix4.rowMajor (Moment.cameraToWorld_of_camera? hc).1
    have hsplit : ms = before.reverse ++ m :: behind.reverse := by
      rw [← List.reverse_reverse ms, hms]
      simp
    dsimp only
    rw [transformLine, hrows]
    exact ⟨_, m, _, _, hsplit, fun m' hm' => hbehind m' (List.mem_reverse.1 hm'), rfl⟩

/-- There is a camera at the end exactly where one was accepted and cameras are not left out. -/
theorem closing_ne_nil_iff {ctx : Context} {ms : List (Moment Float32)} :
    closing ctx ms ≠ [] ↔ ctx.options.skipCamera = false ∧
      ∃ m ∈ ms, ∃ st, m.Accepts ctx st ∧ Action.ofWord st.word = .camera := by
  have hclosing : closing ctx ms ≠ [] ↔ ∃ m ∈ ms, (m.camera? ctx).isSome = true := by
    have hlast : closing ctx ms = [] ↔ (ms.filterMap (Moment.camera? ctx)).getLast? = none := by
      unfold closing
      cases (ms.filterMap (Moment.camera? ctx)).getLast? <;> simp
    rw [ne_eq, hlast, List.getLast?_eq_none_iff, List.filterMap_eq_nil_iff]
    simp only [not_forall, ← ne_eq, Option.ne_none_iff_isSome, exists_prop]
  rw [hclosing]
  constructor
  · rintro ⟨m, hm, hcamera⟩
    obtain ⟨st, hevent, hword⟩ : ∃ st, m.event = .statement st ∧ Action.ofWord st.word = .camera := by
      unfold Moment.camera? at hcamera
      cases hevent : m.event with
      | fault f => simp [hevent] at hcamera
      | statement st =>
        rw [hevent] at hcamera
        dsimp only at hcamera
        split at hcamera
        · rename_i h
          exact ⟨st, rfl, h.1⟩
        · cases hcamera
    obtain ⟨hon, haccepts⟩ := (Moment.isSome_camera?_iff hevent hword).1 hcamera
    exact ⟨hon, m, hm, st, haccepts, hword⟩
  · rintro ⟨hon, m, hm, st, haccepts, hword⟩
    exact ⟨m, hm, (Moment.isSome_camera?_iff haccepts.1 hword).2 ⟨hon, haccepts⟩⟩

end Conversion

end SceneConvert
