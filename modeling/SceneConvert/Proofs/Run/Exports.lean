import SceneConvert.Proofs.Mesh.Decoded
import SceneConvert.Proofs.Mesh.Reread
import SceneConvert.Proofs.Run.Ledger
import SceneConvert.Proofs.Run.Threshold

/-!
# SceneConvert.Proofs.Run.Exports

The meshes that a conversion puts in files of their own.

* `Moment.exported?`: the mesh that a directive puts in a file. `Scene.Passes.meshes`: a conversion has
  these and no others.
* `TriangleMesh.IsExport`: a mesh that is large enough for a file, and what is written of it.
* `Conversion.exports_whole`: every mesh with a file of its own is such a mesh, and no two have one file.
* `Conversion.exports_reread`: when such a file is read back with the counts and the attributes of its mesh.
-/

namespace SceneConvert

/-! ## Surveys -/

namespace Survey

variable {α : Type} {ctx : Context} {s : State α}

/-- A mesh that a plan puts in a file of its own fits together and has more vertices than the
threshold. -/
def KeepsThreshold (ctx : Context) (plan : ShapePlan) : Prop :=
  ∀ m, plan = .separate m → m.IsRegular ∧ ctx.options.meshThreshold < m.vertexCount

theorem gives_trianglePlan : Gives (trianglePlan ctx s) (KeepsThreshold ctx) := by
  refine gives_bind gives_triangleMesh fun m hm => ?_
  split
  · exact gives_pure nofun
  · rename_i hlarge
    refine gives_then fun _ => gives_pure fun m' hm' => ?_
    cases hm'
    exact ⟨hm, Nat.lt_of_not_le hlarge⟩

theorem gives_sphere : Gives sphere (KeepsThreshold ctx) := by
  refine gives_then fun _ => gives_then fun _ => gives_then fun _ => gives_then fun _ => ?_
  exact gives_if (gives_refuse _) (gives_when (fun _ => gives_pure nofun) (gives_pure nofun))

theorem gives_plyPlan (source : Path) : Gives (plyPlan ctx s source) (KeepsThreshold ctx) := by
  refine gives_then fun filename => gives_if (gives_refuse _) ?_
  refine gives_when (fun _ => gives_then fun said => ?_) (gives_then fun said => ?_) <;>
  · generalize readPlyInfo _ _ = info
    rcases info with (cause | _) | info
    · exact gives_refuse _
    · exact ⟨fun _ _ _ h => by cases h⟩
    · exact gives_then fun _ => gives_pure nofun

theorem gives_shape (source : Path) (kind : String) :
    Gives (shape ctx s source kind) (KeepsThreshold ctx) := by
  unfold shape
  split
  · exact gives_sphere
  · exact gives_trianglePlan
  · exact gives_plyPlan source
  · exact gives_refuse _

end Survey

/-! ## Runs -/

section

variable {α : Type} [Scalar α] {ctx : Context}

/-- The mesh that a directive puts in a file of its own. -/
def Moment.exported? (ctx : Context) (m : Moment α) : Option TriangleMesh :=
  match m.change ctx with
  | .shape (.separate x) => some x
  | _ => none

theorem Moment.change_of_exported? {m : Moment α} {x : TriangleMesh} (h : m.exported? ctx = some x) :
    m.change ctx = .shape (.separate x) := by
  unfold exported? at h
  split at h <;> cases h
  assumption

theorem Moment.keepsThreshold {m : Moment α} {x : TriangleMesh} (h : m.exported? ctx = some x) :
    x.IsRegular ∧ ctx.options.meshThreshold < x.vertexCount := by
  obtain ⟨st, v, g, -, -, hsurvey, hchange, hshape⟩ :=
    Moment.exists_of_change (Moment.change_of_exported? h) nofun
  have gives : Survey.Gives (Verdict.shape ctx (m.state.moveTo m.source st.line) m.source st)
      fun v => ∀ plan, v.change = .shape plan → Survey.KeepsThreshold ctx plan := by
    refine Survey.gives_then fun kind => Survey.gives_if (Survey.gives_pure nofun) ?_
    refine Survey.gives_bind (Survey.gives_shape m.source kind) fun plan hplan => ?_
    refine Survey.gives_then fun _ => Survey.gives_pure fun plan' hplan' => ?_
    cases hplan'
    exact hplan
  unfold State.survey Verdict.ofStatement at hsurvey
  rw [show Action.ofWord st.word = .shape from hshape] at hsurvey
  exact gives.gives _ v g hsurvey _ hchange x rfl

theorem Ledger.meshes_after (x : Ledger α) (m : Moment α) :
    (x.after (m.change ctx)).meshes = x.meshes ++ (m.exported? ctx).toList := by
  unfold Moment.exported?
  cases m.change ctx with
  | freshMaterial m => cases m <;> exact (List.append_nil _).symm
  | shape plan =>
    cases plan with
    | separate x => rfl
    | _ => exact (List.append_nil _).symm
  | _ => exact (List.append_nil _).symm

/-- The meshes with files of their own are those of the directives, in order. -/
theorem Scene.Passes.meshes {scene : Scene} {ms : List (Moment α)} {t : State α}
    (h : scene.Passes ctx ms t) :
    t.meshes.toList.map SeparateMesh.mesh = ms.filterMap (Moment.exported? ctx) := by
  have fold (ms : List (Moment α)) (x : Ledger α) :
      (ms.foldl (fun x m => x.after (m.change ctx)) x).meshes =
        x.meshes ++ ms.filterMap (Moment.exported? ctx) := by
    induction ms generalizing x with
    | nil => exact (List.append_nil _).symm
    | cons m ms ih =>
      rw [List.foldl_cons, ih, Ledger.meshes_after, List.append_assoc, List.filterMap_cons]
      cases m.exported? ctx <;> rfl
  exact (congrArg Ledger.meshes h.ledger).trans (fold ms .empty)

omit [Scalar α] in
theorem State.meshes_finish (s : State α) : s.finish.meshes = s.meshes := by
  have hcamera (t : State α) : t.writeCamera.meshes = t.meshes := by
    unfold writeCamera
    split <;> rfl
  unfold finish
  split
  · rfl
  · rw [hcamera, closeObject]
    split <;> rfl

end

/-! ## Conversions -/

/-- A mesh that fits together, with more vertices than the threshold. There is a row for each vertex and a row
for each face, in order, and all of them are read back from what is written. -/
structure TriangleMesh.IsExport (threshold : Nat) (m : TriangleMesh) : Prop where
  regular : m.IsRegular
  large : threshold < m.vertexCount
  vertexRows : m.vertexRows? = some ((List.range m.vertexCount).map m.vertexTuple)
  /-- No index is cut. -/
  faceRows : m.vertexCount ≤ 2 ^ 31 → m.faceRows.map (·.map Int32.toInt) =
    (List.range (m.indices.length / 3)).map fun i => tuple 3 i m.indices
  written : ∃ content, m.plyBytes? = some content ∧ m.HoldsRows content

theorem TriangleMesh.IsRegular.isExport {m : TriangleMesh} (h : m.IsRegular) {threshold : Nat}
    (hlarge : threshold < m.vertexCount) : m.IsExport threshold where
  regular := h
  large := hlarge
  vertexRows := h.vertexRows?_eq
  faceRows := h.map_toInt_faceRows
  written := h.holdsRows

namespace Conversion

theorem isRegular_of_mem {ctx : Context} {scene : Scene} {c : Conversion} {x : SeparateMesh}
    (h : ofScene ctx scene = .ok (.ok c)) (hx : x ∈ c.meshes) :
    x.mesh.IsRegular ∧ ctx.options.meshThreshold < x.mesh.vertexCount := by
  obtain ⟨s, hs, hending⟩ := ofScene_ok h
  obtain ⟨-, rfl⟩ := ending_eq_ok.1 hending
  obtain ⟨ms, t, hpasses, rfl⟩ := State.ofScene_iff_passes.1 hs
  have hmesh : x.mesh ∈ ms.filterMap (Moment.exported? ctx) := by
    rw [← hpasses.meshes, ← State.meshes_finish]
    exact List.mem_map_of_mem hx
  obtain ⟨m, -, hm⟩ := List.mem_filterMap.1 hmesh
  exact Moment.keepsThreshold hm

/-- Every mesh with a file of its own fits together, has more vertices than the threshold and is written
without loss; and different meshes have different files. -/
theorem exports_whole {ctx : Context} {scene : Scene} {c : Conversion}
    (h : ofScene ctx scene = .ok (.ok c)) :
    (∀ x ∈ c.meshes, x.mesh.IsExport ctx.options.meshThreshold) ∧
      (c.meshes.map SeparateMesh.file).Nodup := by
  refine ⟨fun x hx => ?_, ?_⟩
  · obtain ⟨hregular, hlarge⟩ := isRegular_of_mem h hx
    exact hregular.isExport hlarge
  · obtain ⟨s, hs, hending⟩ := ofScene_ok h
    obtain ⟨-, rfl⟩ := ending_eq_ok.1 hending
    exact State.nodup_meshes hs

/-- A triangle in one point. -/
def pointTriangle : Statement :=
  ⟨1, "Shape", some (.text "trianglemesh"),
    ⟨[⟨"P", none, .list (List.replicate 9 (.integer 0)), false⟩]⟩⟩

theorem events_pointTriangle :
    Event.ofText true "Shape \"trianglemesh\" \"P\" [0 0 0 0 0 0 0 0 0]" = [.statement pointTriangle] := by
  cbv

theorem ofScene_triangle :
    ∃ c x, ofScene (Context.of { meshThreshold := 2 } ⟨[], []⟩ ⟨"/main.pbrt"⟩)
        (.text "Shape \"trianglemesh\" \"P\" [0 0 0 0 0 0 0 0 0]") = .ok (.ok c) ∧
      c.meshes = [x] ∧ x.mesh.positions.length = 9 ∧ x.mesh.normals.isSome = false ∧
      x.mesh.uvs.isSome = false ∧ x.mesh.indices = [0, 1, 2] := by
  let ctx := Context.of { meshThreshold := 2 } ⟨[], []⟩ ⟨"/main.pbrt"⟩
  let c := ofState ctx ((State.opening ctx).apply ctx ctx.input pointTriangle).finish
  have hc := @ofScene_single ctx _ pointTriangle (by decide) events_pointTriangle (by decide)
    (by decide +kernel)
  obtain ⟨x, hx⟩ : ∃ x, c.meshes = [x] := List.length_eq_one_iff.1 (by decide +kernel)
  have hsize : c.meshes.map (fun x => (x.mesh.positions.length, x.mesh.normals.isSome,
      x.mesh.uvs.isSome, x.mesh.indices)) = [(9, false, false, [0, 1, 2])] := by decide +kernel
  rw [hx] at hsize
  simp only [List.map_cons, List.map_nil, List.cons.injEq, Prod.mk.injEq, and_true] at hsize
  exact ⟨c, x, hc, hx, hsize⟩

/-- The triangle is whole. -/
theorem exports_whole_triangle :
    ∃ c x, ofScene (Context.of { meshThreshold := 2 } ⟨[], []⟩ ⟨"/main.pbrt"⟩)
        (.text "Shape \"trianglemesh\" \"P\" [0 0 0 0 0 0 0 0 0]") = .ok (.ok c) ∧
      c.meshes = [x] ∧ x.mesh.indices = [0, 1, 2] ∧ x.mesh.IsExport 2 := by
  obtain ⟨c, x, hc, hx, -, -, -, hindices⟩ := ofScene_triangle
  exact ⟨c, x, hc, hx, hindices, (exports_whole hc).1 x (hx ▸ List.mem_singleton_self x)⟩

/-- What a mesh with a file of its own is written to is read back with the counts and the attributes of
the mesh, wherever it is written, if and only if the mesh has a face and the counters hold its counts. -/
theorem exports_reread {ctx : Context} {scene : Scene} {c : Conversion} {x : SeparateMesh}
    (h : ofScene ctx scene = .ok (.ok c)) (hx : x ∈ c.meshes) :
    ∃ content, x.mesh.plyBytes? = some content ∧
      ∀ (t u : FileTree) (p : Path), t.write p content = .ok u →
        (readPlyInfo u p = .ok ⟨x.mesh.positions.length / 3, x.mesh.indices.length / 3,
            x.mesh.normals.isSome, x.mesh.uvs.isSome⟩ ↔
          x.mesh.indices ≠ [] ∧ x.mesh.Countable) := by
  obtain ⟨hregular, hlarge⟩ := isRegular_of_mem h hx
  obtain ⟨content, hcontent, -⟩ := hregular.holdsRows
  refine ⟨content, hcontent, fun t u p hwrite => ?_⟩
  rw [hregular.readPlyInfo_write hcontent hwrite]
  exact x.mesh.rereadInfo_eq_ok

/-- A triangle is read back from the file that it is written to. -/
theorem exports_reread_triangle :
    ∃ c x content u, ofScene (Context.of { meshThreshold := 2 } ⟨[], []⟩ ⟨"/main.pbrt"⟩)
        (.text "Shape \"trianglemesh\" \"P\" [0 0 0 0 0 0 0 0 0]") = .ok (.ok c) ∧
      x ∈ c.meshes ∧ x.mesh.plyBytes? = some content ∧
      FileTree.write ⟨[], []⟩ ⟨"m.ply"⟩ content = .ok u ∧
      readPlyInfo u ⟨"m.ply"⟩ = .ok ⟨3, 1, false, false⟩ := by
  obtain ⟨c, x, hc, hx, hpositions, hnormals, huvs, hindices⟩ := ofScene_triangle
  have hmem : x ∈ c.meshes := hx ▸ List.mem_singleton_self x
  obtain ⟨content, hcontent, hreread⟩ := exports_reread hc hmem
  have hwrite : FileTree.write ⟨[], []⟩ ⟨"m.ply"⟩ content =
      .ok ⟨[(["m.ply"], .file content)], []⟩ := rfl
  have hread := (hreread _ _ _ hwrite).2
    ⟨by simp [hindices], by simp [TriangleMesh.Countable, hindices, hpositions, PlyLine.counterMax]⟩
  rw [hpositions, hindices, hnormals, huvs] at hread
  exact ⟨c, x, content, _, hc, hmem, hcontent, hwrite, hread⟩

/-- A mesh with vertices and no faces is put in a file, which then cannot be read. -/
theorem exports_unreadable :
    ∃ c x content u, ofScene (Context.of { meshThreshold := 2 } ⟨[], []⟩ ⟨"/main.pbrt"⟩)
        (.text "Shape \"trianglemesh\" \"P\" [0 0 0 0 0 0 0 0 0] \"indices\" []") = .ok (.ok c) ∧
      x ∈ c.meshes ∧ x.mesh.plyBytes? = some content ∧
      FileTree.write ⟨[], []⟩ ⟨"m.ply"⟩ content = .ok u ∧
      readPlyInfo u ⟨"m.ply"⟩ = .error (.failure .empty) := by
  let ctx := Context.of { meshThreshold := 2 } ⟨[], []⟩ ⟨"/main.pbrt"⟩
  let corners : List Value := List.replicate 9 (.integer 0)
  let st : Statement :=
    ⟨1, "Shape", some (.text "trianglemesh"),
      ⟨[⟨"P", none, .list corners, false⟩, ⟨"indices", none, .list [], false⟩]⟩⟩
  let c := ofState ctx ((State.opening ctx).apply ctx ctx.input st).finish
  have hevents : Event.ofText true
      "Shape \"trianglemesh\" \"P\" [0 0 0 0 0 0 0 0 0] \"indices\" []" = [.statement st] := by cbv
  have hc := @ofScene_single ctx _ st (by decide) hevents (by decide) (by decide +kernel)
  obtain ⟨x, hx⟩ : ∃ x, c.meshes = [x] := List.length_eq_one_iff.1 (by decide +kernel)
  have hmem : x ∈ c.meshes := hx ▸ List.mem_singleton_self x
  have hfaceless : c.meshes.map (fun x => (x.mesh.vertexCount, x.mesh.indices)) = [(3, [])] := by
    decide +kernel
  rw [hx] at hfaceless
  obtain ⟨hcount, hindices⟩ := Prod.mk.inj (List.cons.inj hfaceless).1
  obtain ⟨hregular, hlarge⟩ := isRegular_of_mem hc hmem
  obtain ⟨content, hcontent, -⟩ := hregular.holdsRows
  have hwrite : FileTree.write ⟨[], []⟩ ⟨"m.ply"⟩ content =
      .ok ⟨[(["m.ply"], .file content)], []⟩ := rfl
  refine ⟨c, x, content, _, hc, hmem, hcontent, hwrite, ?_⟩
  rw [hregular.readPlyInfo_write hcontent hwrite, TriangleMesh.rereadInfo, hcount, hindices]
  rfl

end Conversion

end SceneConvert
