import Mathlib
import SceneConvert.Conversion.Result
import SceneConvert.Proofs.Path.OutputName
import SceneConvert.Proofs.Run.ObeysRun
import SceneConvert.Proofs.Run.Pages

/-!
# SceneConvert.Proofs.Run.References

The references of a conversion that had nothing to report.

* `Policy.closed`: an entry may refer to what was defined before it, and include some files.
* `Conversion.Complete`: all references, mesh files and includes of a conversion are met.
* `Conversion.references_met`: a conversion that had nothing to report is complete.
-/

namespace SceneConvert

variable {α : Type}

/-- An entry refers only to what the entries before it define, and includes files of `files`. -/
def Policy.closed (files : List Path) : Policy α where
  holds es r := ∃ e ∈ es, e.reference? = some r
  word _ := True
  file _ := True
  included p := p ∈ files
  grows _ h := h.imp fun _ h => ⟨List.mem_append_left _ h.1, h.2⟩
  defines _ := ⟨_, List.mem_append_right _ (List.mem_singleton_self _), rfl⟩
  counted _ _ := trivial
  unscaled _ := trivial
  mapped _ := trivial
  separate _ := trivial
  camera := trivial

theorem numberedMesh_inj {m n : Nat} (h : numberedMesh m = numberedMesh n) : m = n := by
  have htext : (numberedMesh m).text = (numberedMesh n).text := congrArg Path.text h
  have hname : Counter.mesh.name m = Counter.mesh.name n :=
    (String.append_right_inj _).1 ((String.append_left_inj _).1 htext)
  exact Counter.name_inj hname

theorem State.CountsMeshes.nodup {s : State α} {ns : List Nat} (h : s.CountsMeshes ns) :
    (s.meshes.toList.map SeparateMesh.file).Nodup := by
  rw [h.meshes]
  exact (List.Pairwise.imp Nat.ne_of_lt h.increasing).map numberedMesh fun m n hne heq =>
    hne (numberedMesh_inj heq)

/-- A mesh entry with a file of the output stands for one mesh. -/
theorem State.CountsMeshes.countP_eq_one {s : State α} {ns : List Nat} (h : s.CountsMeshes ns)
    {e : Entry α} (he : e ∈ s.entries) {file : Path} (hfile : e.separateMesh? = some file) :
    s.meshes.toList.countP (fun m => m.file = file) = 1 := by
  have hmem : file ∈ s.meshes.toList.map SeparateMesh.file := by
    rw [h.meshes, ← h.entries]
    exact List.mem_filterMap.2 ⟨e, he, hfile⟩
  have hcount := List.count_eq_one_of_mem h.nodup hmem
  rw [List.count_eq_countP, List.countP_map] at hcount
  rw [← hcount]
  refine List.countP_congr ?_
  intro m _
  simp

namespace Conversion

/-- Everything that a conversion refers to is there: an entry refers to what was written before it, each
mesh with a file of the output is one of the meshes, once, and every included file is one of the
files. -/
structure Complete (s : State Float32) (c : Conversion) : Prop where
  references : ∀ before e after, s.entries = before ++ e :: after →
    ∀ r ∈ e.references, ∃ d ∈ before, d.reference? = some r
  meshes : ∀ e ∈ s.entries, ∀ file, e.separateMesh? = some file →
    c.meshes.countP (fun m => m.file = file) = 1
  includes : ∀ p, .include_ p ∈ s.entries → ∃ f ∈ c.files, f.path = p

theorem complete_of_silent {ctx : Context} {scene : Scene} {s : State Float32} {c : Conversion}
    (hs : State.ofScene ctx scene = .ok s) (hc : ending ctx s = .ok c) (h : c.diagnostics = []) :
    Complete s c := by
  obtain ⟨-, rfl⟩ := ending_eq_ok.1 hc
  let P : Policy Float32 := .closed (s.finished.toList.map Page.file)
  have hmet : P.IsMetBy s :=
    ⟨.inr h, fun page hpage => List.mem_map_of_mem (Array.mem_toList_iff.2 hpage)⟩
  have hobeys : s.Obeys P := State.obeys_ofScene hs
    (Scene.permitted_of_forall (fun _ => trivial) (fun _ => trivial) ctx scene) hmet
  obtain ⟨ns, hns⟩ := hobeys.meshes
  refine ⟨fun before e after hes => ?_, fun e he file hfile => ?_, fun p hp => ?_⟩
  · exact (hobeys.entries.admits hes).references
  · exact hns.countP_eq_one he hfile
  · obtain ⟨before, after, hes⟩ := List.append_of_mem hp
    obtain ⟨page, hpage, rfl⟩ := List.mem_map.1 ((hobeys.entries.admits hes).included p rfl)
    exact ⟨⟨page.file, includedText ctx page.entries⟩,
      List.mem_cons_of_mem _ (List.mem_map_of_mem hpage), rfl⟩

/-- In a conversion that reported nothing, every entry refers only to what was written before it, in
the order of writing, which takes its turns from the files; every mesh with a file of the output is
one of the meshes, once; and every included file is one of the files. -/
theorem references_met {ctx : Context} {scene : Scene} {s : State Float32} {c : Conversion}
    (hs : State.ofScene ctx scene = .ok s) (hc : ending ctx s = .ok c) (h : c.diagnostics = []) :
    Interleaves s.entries ((s.pages ctx).map Page.entries) ∧
    (∀ before e after, s.entries = before ++ e :: after →
      ∀ r ∈ e.references, ∃ d ∈ before, d.reference? = some r) ∧
    (∀ e ∈ s.entries, ∀ file, e.separateMesh? = some file →
      c.meshes.countP (fun m => m.file = file) = 1) ∧
    (∀ p, .include_ p ∈ s.entries → ∃ f ∈ c.files, f.path = p) := by
  have hcomplete := complete_of_silent hs hc h
  exact ⟨State.interleaves_ofScene hs, hcomplete.references, hcomplete.meshes, hcomplete.includes⟩

/-- A material that refers to a texture. -/
theorem references_met_textured :
    ∃ s c, State.ofScene solitary
        (.text "Texture \"t\" \"color\" \"constant\" Material \"matte\" \"texture Kd\" \"t\"") = .ok s ∧
      ending solitary s = .ok c ∧ c.diagnostics = [] ∧
      s.entries.map Entry.references = [[], [(.texture, "t")]] ∧
      ∀ before e after, s.entries = before ++ e :: after →
        ∀ r ∈ e.references, ∃ d ∈ before, d.reference? = some r := by
  let text := "Texture \"t\" \"color\" \"constant\" Material \"matte\" \"texture Kd\" \"t\""
  let st : Statement := ⟨1, "Texture", some (.text "t"), ⟨[⟨"color", none, .text "constant", false⟩]⟩⟩
  let st' : Statement :=
    ⟨1, "Material", some (.text "matte"), ⟨[⟨"Kd", some "texture", .text "t", false⟩]⟩⟩
  let s₁ : State Float32 := (State.opening solitary).apply solitary solitary.input st
  let s₂ := s₁.apply solitary solitary.input st'
  have hevents : Event.ofText solitary.options.collapseLists text = [.statement st, .statement st'] := by
    rw [show solitary.options.collapseLists = true from rfl]
    cbv
  have hs : State.ofScene solitary (.text text) = .ok s₂.finish := by
    rw [State.ofScene, State.ofText, State.read, hevents, State.run_apply rfl (by decide),
      State.run_apply (by decide +kernel) (by decide), State.run_nil]
  have hc : ending solitary s₂.finish = .ok (ofState solitary s₂.finish) := by
    have hhalted : s₂.finish.halted = false := by decide +kernel
    rw [ending, stopped?, if_neg (by decide), hhalted]
    rfl
  have hclean : (ofState solitary s₂.finish).diagnostics = [] := by decide +kernel
  have hreferences : s₂.finish.entries.map Entry.references = [[], [(.texture, "t")]] := by
    decide +kernel
  obtain ⟨-, hmet, -, -⟩ := references_met hs hc hclean
  exact ⟨_, _, hs, hc, hclean, hreferences, hmet⟩

end Conversion

end SceneConvert
