import SceneConvert.Proofs.Run.Exports
import SceneConvert.Proofs.Run.OutputFiles

/-!
# SceneConvert.Proofs.Run.Deliveries

What is written of a conversion when some of its outputs cannot be written.

* `Conversion.exists_meshes`: every mesh of a conversion has its content.
* `Conversion.outputs_tried`: no output costs another, but for the main file.
-/

namespace SceneConvert

namespace Conversion

variable {ctx : Context} {scene : Scene} {c : Conversion}

theorem exists_meshes (h : ofScene ctx scene = .ok (.ok c)) :
    ∃ meshes : List Deliverable, c.meshes.map SeparateMesh.deliverable? = meshes.map some := by
  suffices h : c.meshes.map SeparateMesh.deliverable? ∈ Set.range (List.map some) by
    obtain ⟨meshes, hmeshes⟩ := h
    exact ⟨meshes, hmeshes.symm⟩
  rw [Set.range_list_map]
  intro o ho
  obtain ⟨m, hm, rfl⟩ := List.mem_map.1 ho
  obtain ⟨content, hcontent, -⟩ := (isRegular_of_mem h hm).1.holdsRows
  exact ⟨_, (congrArg (Option.map _) hcontent).symm⟩

/-- Writing a conversion fails if and only if the main file cannot be written, and no file has changed then.
Otherwise all other files and all meshes are tried, and the result is a report for each one that failed, in
this order. Whatever was written and not written over is there in the end. -/
theorem outputs_tried (h : ofScene ctx scene = .ok (.ok c)) (dir : Path) (t : FileTree) :
    ∃ main includes, ∃ meshes : List Deliverable, c.files = main :: includes ∧
      c.meshes.map SeparateMesh.deliverable? = meshes.map some ∧
      let first := t.attempt dir main.deliverable
      let outputs := main.deliverable :: (includes.map OutputFile.deliverable ++ meshes)
      let all := t.attemptAll dir outputs
      let written := c.writeTo dir t
      (∀ f, written.outcome = .error f ↔ first.2 = some f) ∧
      (first.2 ≠ none → t.AddsDirectories written.tree) ∧
      (first.2 = none →
        all.2.map Prod.fst = outputs ∧
        written.outcome = .ok (all.2.filterMap fun a => a.2.map Failure.diagnostic) ∧
        ∀ before o after, all.2 = before ++ (o, none) :: after →
          (∀ a ∈ after, a.2 = none → a.1.path ≠ o.path) →
            written.tree.read (dir.join o.path) = .ok o.content) := by
  obtain ⟨meshes, hmeshes⟩ := exists_meshes h
  obtain ⟨s, -, hending⟩ := ofScene_ok h
  obtain ⟨main, includes, hfiles⟩ : ∃ main includes, c.files = main :: includes := by
    obtain ⟨-, rfl⟩ := ending_eq_ok.1 hending
    exact ⟨_, _, rfl⟩
  refine ⟨main, includes, meshes, hfiles, hmeshes, ?_⟩
  intro first outputs all written
  have houtputs : c.deliverables = outputs := by
    have hdelivered : c.meshes.filterMap SeparateMesh.deliverable? = meshes := by
      have hsome := congrArg (List.filterMap id) hmeshes
      simpa only [List.filterMap_map, Function.id_comp, Function.comp_def, id, List.filterMap_some]
        using hsome
    rw [deliverables, hfiles, hdelivered]
    rfl
  cases hfirst : first.2 with
  | some f =>
    obtain ⟨houtcome, htree⟩ := writeTo_of_main_failed hfiles hfirst
    refine ⟨fun f' => ?_, fun _ => ?_, fun h => absurd h (Option.some_ne_none f)⟩
    · rw [houtcome]
      simp
    · rw [htree]
      exact FileTree.addsDirectories_attempt (Option.ne_none_iff_exists'.2 ⟨f, hfirst⟩)
  | none =>
    obtain ⟨houtcome, htree⟩ := writeTo_of_main_written hfiles hfirst
    rw [houtputs] at houtcome htree
    refine ⟨fun f => ?_, fun h => absurd rfl h, fun _ => ⟨t.map_fst_attemptAll dir outputs, houtcome, ?_⟩⟩
    · rw [houtcome]
      simp
    · intro before o after hsplit hlast
      rw [htree]
      exact FileTree.read_attemptAll (fun o ho => exists_isNamed_of_mem_deliverables h (houtputs ▸ ho))
        hsplit hlast

/-- A file stands where the directory of meshes should be: the mesh is reported, and the scene is written. -/
theorem outputs_tried_blocked :
    ∃ c, ofScene (Context.of { meshThreshold := 2 } ⟨[], []⟩ ⟨"/main.pbrt"⟩)
        (.text "Shape \"trianglemesh\" \"P\" [0 0 0 0 0 0 0 0 0]") = .ok (.ok c) ∧
      let written := c.writeTo ⟨"out"⟩ ⟨[(["out"], .directory), (["out", "meshes"], .file "".toUTF8)], []⟩
      written.outcome = .ok [Failure.diagnostic ⟨.makeDirectory ⟨"out/meshes"⟩, .alreadyExists⟩] ∧
      ∃ f, c.files = [f] ∧ written.tree.read (Path.join ⟨"out"⟩ f.path) = .ok f.text.toUTF8 := by
  let ctx := Context.of { meshThreshold := 2 } ⟨[], []⟩ ⟨"/main.pbrt"⟩
  let c := ofState ctx ((State.opening ctx).apply ctx ctx.input pointTriangle).finish
  let t : FileTree := ⟨[(["out"], .directory), (["out", "meshes"], .file "".toUTF8)], []⟩
  have hc := @ofScene_single ctx _ pointTriangle (by decide) events_pointTriangle (by decide)
    (by decide +kernel)
  have hreported : (c.writeTo ⟨"out"⟩ t).outcome.toOption =
      some [Failure.diagnostic ⟨.makeDirectory ⟨"out/meshes"⟩, .alreadyExists⟩] := by decide +kernel
  have houtcome := eq_ok_of_toOption hreported
  have hpaths : c.files.map OutputFile.path = [⟨"main.prc"⟩] := by decide +kernel
  have hmeshFiles : c.meshes.map SeparateMesh.file = [⟨"meshes/mesh_0.ply"⟩] := by decide +kernel
  obtain ⟨main, includes, meshes, hfiles, hmeshes, herror, -, hrest⟩ := outputs_tried hc ⟨"out"⟩ t
  rw [hfiles, List.map_cons] at hpaths
  obtain ⟨hmain, hnone⟩ := List.cons.inj hpaths
  obtain rfl := List.map_eq_nil_iff.1 hnone
  have hfirst : (t.attempt ⟨"out"⟩ main.deliverable).2 = none := by
    refine Option.eq_none_iff_forall_ne_some.2 fun f hf => ?_
    have hfailed := (herror f).2 hf
    rw [houtcome] at hfailed
    cases hfailed
  obtain ⟨htried, -, hread⟩ := hrest hfirst
  rw [FileTree.attemptAll_cons, hfirst] at htried hread
  have hothers := (List.cons.inj htried).2
  rw [List.map_nil, List.nil_append] at hothers
  refine ⟨c, hc, houtcome, main, hfiles, hread [] main.deliverable _ rfl fun a ha _ hpath => ?_⟩
  have hmesh : a.1 ∈ meshes := hothers ▸ List.mem_map_of_mem ha
  obtain ⟨m, hm, hdeliverable⟩ : ∃ m ∈ c.meshes, m.deliverable? = some a.1 :=
    List.mem_map.1 (hmeshes ▸ List.mem_map_of_mem hmesh)
  have hfile : m.file ∈ c.meshes.map SeparateMesh.file := List.mem_map_of_mem hm
  rw [← SeparateMesh.path_of_deliverable? hdeliverable, hpath, hmeshFiles, List.mem_singleton] at hfile
  exact absurd (hmain.symm.trans hfile) (by decide)

end Conversion

end SceneConvert
