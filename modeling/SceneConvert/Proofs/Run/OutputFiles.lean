import SceneConvert.Proofs.Files.Delivery
import SceneConvert.Proofs.Run.Naming
import SceneConvert.Proofs.Run.References

/-!
# SceneConvert.Proofs.Run.OutputFiles

The output files of a conversion on their way to the disk.

* `exists_outputName_of_mem`, `exists_numberedMesh_of_mem`: what the paths of output files and of meshes
  look like.
* `Conversion.paths_distinct_iff`: when all output files have different paths, and that they can all be
  read back then.
-/

namespace SceneConvert

open SceneConvert.Path

def Policy.free {α : Type} : Policy α where
  holds _ _ := True
  word _ := True
  file _ := True
  included _ := True
  grows _ _ := trivial
  defines _ := trivial
  counted _ _ := trivial
  unscaled _ := trivial
  mapped _ := trivial
  separate _ := trivial
  camera := trivial

theorem State.countsMeshes_ofScene {α : Type} [Scalar α] {ctx : Context} {scene : Scene} {s : State α}
    (h : ofScene ctx scene = .ok s) : ∃ ns, s.CountsMeshes ns := by
  have hmet : (Policy.free : Policy α).IsMetBy s := ⟨.inl fun _ _ _ => trivial, fun _ _ => trivial⟩
  have hpermitted : scene.Permitted (Policy.free : Policy α) ctx :=
    Scene.permitted_of_forall (fun _ => trivial) (fun _ => trivial) ctx scene
  exact (obeys_ofScene h hpermitted hmet).meshes

namespace Path

def names (p : Path) : List String :=
  p.components.filterMap fun
    | .name s => some s
    | _ => none

theorem names_ofNames {ns : List String} (hns : ∀ n ∈ ns, IsName n) : (ofNames ns).names = ns := by
  rw [names, components_ofNames hns, List.filterMap_map]
  exact List.filterMap_some

theorem isNamed_outputName (o : OutputName) : o.path.IsNamed o.path.names := by
  have hnames : o.path.names = o.dirs ++ [o.file] := names_ofNames o.names
  rw [hnames]
  exact ⟨rfl, by simp, o.names⟩

end Path

def meshFileName (n : Nat) : String := Counter.mesh.name n ++ ".ply"

theorem toList_meshFileName (n : Nat) :
    (meshFileName n).toList = "mesh_".toList ++ (toString n).toList ++ ".ply".toList := by
  simp [meshFileName, Counter.name, Counter.label]

theorem isNamed_numberedMesh (n : Nat) : (numberedMesh n).IsNamed ["meshes", meshFileName n] := by
  have hdigits : '/' ∉ (toString n).toList := OutputName.not_mem_toString (by decide)
  have hfile : IsName (meshFileName n) := by
    have hlist := toList_meshFileName n
    refine ⟨?_, ?_, ?_, ?_⟩
    · simp only [hlist, List.mem_append, not_or]
      exact ⟨⟨by decide, hdigits⟩, by decide⟩
    all_goals
      intro h
      rw [h] at hlist
      simp at hlist
  refine ⟨?_, by simp, ?_⟩
  · apply ext_toList
    rw [text_ofNames]
    simp [numberedMesh, meshFile, joinSlashes, toList_meshFileName, Counter.name, Counter.label]
  · have hdir : IsName "meshes" := ⟨by decide, by decide, by decide, by decide⟩
    simpa using ⟨hdir, hfile⟩

/-- No output file has the names of a mesh: they end in different extensions. -/
theorem OutputName.names_ne_mesh (o : OutputName) (n : Nat) :
    o.path.names ≠ ["meshes", meshFileName n] := by
  intro h
  have hnames : o.path.names = o.dirs ++ [o.file] := names_ofNames o.names
  rw [hnames] at h
  have hfile : o.file = meshFileName n := by
    have hlast := congrArg List.getLast? h
    simpa using hlast
  have hends : o.file.toList.getLast? = (meshFileName n).toList.getLast? :=
    congrArg (fun s : String => s.toList.getLast?) hfile
  rw [file_toList, toList_meshFileName, List.getLast?_append, List.getLast?_append] at hends
  simp at hends

theorem Scene.exists_outputName_of_mem_requests {ctx : Context} (scene : Scene) {b : Path}
    (hb : b ∈ scene.requests ctx) : ∃ o : OutputName, b = o.path := by
  unfold requests at hb
  split at hb
  · cases hb
  · unfold IncludedFile.requests at hb
    split at hb
    · cases hb
    · obtain ⟨file, -, rfl⟩ := List.mem_map.1 hb
      exact OutputName.exists_outputFor file.key ctx.inputDirectory

namespace Conversion

variable {ctx : Context} {scene : Scene} {c : Conversion}

theorem exists_outputName_of_mem (h : ofScene ctx scene = .ok (.ok c)) {f : OutputFile}
    (hf : f ∈ c.files) : ∃ o : OutputName, f.path = o.path := by
  obtain ⟨paths, hpaths, hperm⟩ := paths_ofScene h
  have hmem : f.path ∈ ctx.mainOutput :: paths := hpaths ▸ List.mem_map_of_mem hf
  rcases List.mem_cons.1 hmem with hmain | hmem
  · obtain ⟨o, ho⟩ := OutputName.exists_mainOutput ctx
    exact ⟨o, hmain.trans ho⟩
  · obtain ⟨b, n, hlt, hpath⟩ := mem_handedOut.1 (hperm.mem_iff.1 hmem)
    obtain ⟨o, rfl⟩ := scene.exists_outputName_of_mem_requests
      (List.count_pos_iff.1 (Nat.zero_lt_of_lt hlt))
    unfold nth at hpath
    split at hpath
    · exact ⟨o, hpath⟩
    · exact ⟨o.numbered n, hpath.trans (o.numbered_path n)⟩

theorem exists_numberedMesh_of_mem (h : ofScene ctx scene = .ok (.ok c)) {m : SeparateMesh}
    (hm : m ∈ c.meshes) : ∃ n, m.file = numberedMesh n := by
  obtain ⟨s, hs, hc⟩ := ofScene_ok h
  obtain ⟨ns, hns⟩ := State.countsMeshes_ofScene hs
  have hfile : m.file ∈ s.meshes.toList.map SeparateMesh.file := by
    unfold ending at hc
    split at hc <;> cases hc
    exact List.mem_map_of_mem hm
  rw [hns.meshes] at hfile
  obtain ⟨n, -, hn⟩ := List.mem_map.1 hfile
  exact ⟨n, hn.symm⟩

theorem isNamed_of_mem_files (h : ofScene ctx scene = .ok (.ok c)) {f : OutputFile} (hf : f ∈ c.files) :
    f.path.IsNamed f.path.names := by
  obtain ⟨o, ho⟩ := exists_outputName_of_mem h hf
  rw [ho]
  exact isNamed_outputName o

theorem exists_isNamed_of_mem_meshes (h : ofScene ctx scene = .ok (.ok c)) {m : SeparateMesh}
    (hm : m ∈ c.meshes) : ∃ ns, m.file.IsNamed ns := by
  obtain ⟨n, hn⟩ := exists_numberedMesh_of_mem h hm
  exact ⟨_, hn ▸ isNamed_numberedMesh n⟩

theorem exists_isNamed_of_mem_deliverables (h : ofScene ctx scene = .ok (.ok c)) {o : Deliverable}
    (ho : o ∈ c.deliverables) : ∃ ns, o.path.IsNamed ns := by
  rcases List.mem_append.1 ho with ho | ho
  · obtain ⟨f, hf, rfl⟩ := List.mem_map.1 ho
    exact ⟨_, isNamed_of_mem_files h hf⟩
  · obtain ⟨m, hm, hmo⟩ := List.mem_filterMap.1 ho
    rw [SeparateMesh.path_of_deliverable? hmo]
    exact exists_isNamed_of_mem_meshes h hm

/-- The paths of the output files are all different exactly if the names that the included files ask
for are apart. Then every file can be read back after writing, unless some write failed. -/
theorem paths_distinct_iff (h : ofScene ctx scene = .ok (.ok c)) :
    (c.files.Pairwise (fun f g => f.path.same g.path = false) ↔
      Apart ctx.mainOutput (scene.requests ctx)) ∧
    (Apart ctx.mainOutput (scene.requests ctx) →
      ∀ (dir : Path) (t : FileTree), (c.writeTo dir t).outcome = .ok [] →
        ∀ f ∈ c.files, (c.writeTo dir t).tree.readText (dir.join f.path) = .ok f.text) := by
  have hsame {f g : OutputFile} (hf : f ∈ c.files) (hg : g ∈ c.files) :
      f.path.same g.path = false ↔ f.path ≠ g.path := by
    obtain ⟨o, ho⟩ := exists_outputName_of_mem h hf
    obtain ⟨o', ho'⟩ := exists_outputName_of_mem h hg
    rw [ho, ho', ne_eq, ← OutputName.same_path, Bool.not_eq_true]
  have hdistinct : c.files.Pairwise (fun f g => f.path.same g.path = false) ↔
      Apart ctx.mainOutput (scene.requests ctx) := by
    obtain ⟨paths, hpaths, hperm⟩ := paths_ofScene h
    rw [← nodup_handedOut_iff (fun b hb => scene.exists_outputName_of_mem_requests hb),
      ← (hperm.cons ctx.mainOutput).nodup_iff, ← hpaths, List.Nodup, List.pairwise_map]
    exact List.Pairwise.iff_of_mem fun hf hg => hsame hf hg
  refine ⟨hdistinct, fun hapart dir t houtcome f hf => ?_⟩
  refine readText_writeTo (fun o ho => exists_isNamed_of_mem_deliverables h ho) ?_ ?_ houtcome hf
  · exact (hdistinct.2 hapart).imp_of_mem fun hf hg hfg => (hsame hf hg).1 hfg
  · intro f hf m hm hpath
    obtain ⟨o, ho⟩ := exists_outputName_of_mem h hf
    obtain ⟨n, hn⟩ := exists_numberedMesh_of_mem h hm
    obtain ⟨hmesh, -, hnames⟩ := isNamed_numberedMesh n
    refine o.names_ne_mesh n ?_
    rw [← ho, ← hpath, hn, hmesh, names_ofNames hnames]

theorem eq_ok_of_toOption {ε β : Type} {x : Except ε β} {b : β} (h : x.toOption = some b) : x = .ok b := by
  cases x with
  | error e => cases h
  | ok b' => exact congrArg Except.ok (Option.some.inj h)

/-- The scene `a/main.pbrt` with a neighbour, and another scene of its name above it, all empty. -/
def neighbours : Context where
  options := {}
  files :=
    ⟨[(["a"], .directory), (["a", "main.pbrt"], .file "".toUTF8), (["a", "part.pbrt"], .file "".toUTF8),
      (["main.pbrt"], .file "".toUTF8)], []⟩
  includeRoot := ⟨"/a"⟩
  input := ⟨"/a/main.pbrt"⟩

/-- A file that is included twice gets a number the second time. -/
theorem paths_distinct_twice :
    ∃ c, ofScene neighbours (.text "Include \"part.pbrt\" Include \"part.pbrt\"") = .ok (.ok c) ∧
      c.files.map OutputFile.path = [⟨"main.prc"⟩, ⟨"part.prc"⟩, ⟨"part_1.prc"⟩] ∧
      (c.writeTo ⟨"out"⟩ neighbours.files).outcome = .ok [] ∧
      ∀ f ∈ c.files, (c.writeTo ⟨"out"⟩ neighbours.files).tree.readText (Path.join ⟨"out"⟩ f.path) =
        .ok f.text := by
  let text := "Include \"part.pbrt\" Include \"part.pbrt\""
  let st : Statement := ⟨1, "Include", some (.text "part.pbrt"), .empty⟩
  let part : IncludedFile := ⟨⟨"/a/part.pbrt"⟩, ⟨"/a/part.pbrt"⟩, ""⟩
  have hevents : Event.ofText neighbours.options.collapseLists text = [.statement st, .statement st] := by
    rw [show neighbours.options.collapseLists = true from rfl]
    cbv
  have hempty : Event.ofText neighbours.options.collapseLists part.text = [] := by with_unfolding_all rfl
  have hword : Action.ofWord st.word = .include_ := by decide
  let s₀ : State Float32 := (State.opening neighbours).moveTo neighbours.input 1
  let s₁ := (s₀.enterFile neighbours part).2.leaveFile s₀ part (s₀.enterFile neighbours part).1
  let s₂ := (s₁.enterFile neighbours part).2.leaveFile s₁ part (s₁.enterFile neighbours part).1
  have hrun : State.ofText neighbours text = s₂.finish := by
    have hfound (s : State Float32) : Inclusion.ofStatement neighbours
        [neighbours.files.absolute neighbours.input] s neighbours.input st = .ok (.enter part) := by
      with_unfolding_all rfl
    unfold State.ofText State.read
    rw [hevents, State.run_include_empty rfl hword (hfound _) hempty,
      State.run_include_empty rfl hword (hfound _) hempty, State.run_nil]
    rfl
  have hc : ofScene neighbours (.text text) = .ok (.ok (ofState neighbours s₂.finish)) := by
    rw [ofScene, State.ofScene, hrun]
    rfl
  have hpaths : (ofState neighbours s₂.finish).files.map OutputFile.path =
      [⟨"main.prc"⟩, ⟨"part.prc"⟩, ⟨"part_1.prc"⟩] := by decide +kernel
  have hdistinct : (ofState neighbours s₂.finish).files.Pairwise
      (fun f g => f.path.same g.path = false) := by
    rw [← List.pairwise_map (f := OutputFile.path) (R := fun p q => p.same q = false), hpaths]
    decide +kernel
  have hwritten : ((ofState neighbours s₂.finish).writeTo ⟨"out"⟩ neighbours.files).outcome = .ok [] :=
    eq_ok_of_toOption (by decide +kernel)
  obtain ⟨hiff, hread⟩ := paths_distinct_iff hc
  exact ⟨_, hc, hpaths, hwritten, hread (hiff.1 hdistinct) ⟨"out"⟩ neighbours.files hwritten⟩

/-- An included file from outside the directory of the scene can get the name of the main file, and
takes its place on the disk. -/
theorem paths_same_outside :
    ∃ c, ofScene neighbours (.text "Include \"../main.pbrt\"") = .ok (.ok c) ∧
      c.files.map OutputFile.path = [⟨"main.prc"⟩, ⟨"main.prc"⟩] ∧
      (c.writeTo ⟨"out"⟩ neighbours.files).outcome = .ok [] ∧
      ¬∀ f ∈ c.files, (c.writeTo ⟨"out"⟩ neighbours.files).tree.readText (Path.join ⟨"out"⟩ f.path) =
        .ok f.text := by
  let text := "Include \"../main.pbrt\""
  let st : Statement := ⟨1, "Include", some (.text "../main.pbrt"), .empty⟩
  let outside : IncludedFile := ⟨⟨"/main.pbrt"⟩, ⟨"/main.pbrt"⟩, ""⟩
  have hevents : Event.ofText neighbours.options.collapseLists text = [.statement st] := by
    rw [show neighbours.options.collapseLists = true from rfl]
    cbv
  have hempty : Event.ofText neighbours.options.collapseLists outside.text = [] := by
    with_unfolding_all rfl
  have hword : Action.ofWord st.word = .include_ := by decide
  let s₀ : State Float32 := (State.opening neighbours).moveTo neighbours.input 1
  let s₁ := (s₀.enterFile neighbours outside).2.leaveFile s₀ outside (s₀.enterFile neighbours outside).1
  have hrun : State.ofText neighbours text = s₁.finish := by
    have hfound (s : State Float32) : Inclusion.ofStatement neighbours
        [neighbours.files.absolute neighbours.input] s neighbours.input st = .ok (.enter outside) := by
      with_unfolding_all rfl
    unfold State.ofText State.read
    rw [hevents, State.run_include_empty rfl hword (hfound _) hempty, State.run_nil]
  have hc : ofScene neighbours (.text text) = .ok (.ok (ofState neighbours s₁.finish)) := by
    rw [ofScene, State.ofScene, hrun]
    rfl
  have hfiles : (ofState neighbours s₁.finish).files.map (fun f => (f.path, f.text)) =
      [(⟨"main.prc"⟩, "(scene\n\t(include 'main.prc')\n)\n"), (⟨"main.prc"⟩, "")] := by decide +kernel
  refine ⟨ofState neighbours s₁.finish, hc, by decide +kernel,
    eq_ok_of_toOption (by decide +kernel), fun hread => ?_⟩
  obtain ⟨main, hmain, heq⟩ := List.mem_map.1 (hfiles ▸ List.mem_cons_self)
  obtain ⟨child, hchild, heq'⟩ := List.mem_map.1 (hfiles ▸ List.mem_cons_of_mem _ List.mem_cons_self)
  have hmainText := hread main hmain
  have hchildText := hread child hchild
  injection heq with hpath htext
  injection heq' with hpath' htext'
  rw [hpath, htext] at hmainText
  rw [hpath', htext', hmainText] at hchildText
  injection hchildText with hsame
  exact absurd hsame (by decide)

end Conversion

end SceneConvert
