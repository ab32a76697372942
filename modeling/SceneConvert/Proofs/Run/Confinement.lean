import SceneConvert.Proofs.Files.Resolve
import SceneConvert.Proofs.Run.OutputFiles

/-!
# SceneConvert.Proofs.Run.Confinement

No scene makes a conversion write outside the directory that it is written to.

* `FileTree.Confined`: between two moments files were made or changed only below a directory.
* `Conversion.confined_writeTo`: writing a conversion is confined if all its paths consist of names.
* `Conversion.writes_below`: the paths of every conversion do, whatever the scene includes.
-/

namespace SceneConvert

open SceneConvert.Path

/-- A path that is not empty, has no root and consists of ordinary names: neither `.` nor `..`. -/
def Path.IsDescending (p : Path) : Prop :=
  p.isAbsolute = false ∧ p.components ≠ [] ∧ ∀ x ∈ p.components, ∃ s, x = .name s

theorem Path.IsNamed.isDescending {p : Path} {ns : List String} (h : p.IsNamed ns) :
    p.IsDescending := by
  obtain ⟨rfl, hne, hnames⟩ := h
  refine ⟨isAbsolute_ofNames hnames, ?_, ?_⟩
  · simpa [components_ofNames hnames] using hne
  · simp [components_ofNames hnames]

namespace FileTree

/-! ## The place of a directory -/

/-- The place that files with relative paths are written below: that of `dir`, and the working
directory if `dir` is empty. -/
def baseOf (t : FileTree) (dir : Path) : Except FileError Place :=
  if dir.text.isEmpty then .ok t.workingDirectory else t.locate dir

/-- The place `q` lies below the one of `dir`. -/
def IsBelow (t : FileTree) (dir : Path) (q : Place) : Prop :=
  ∃ base ns, t.baseOf dir = .ok base ∧ ns ≠ [] ∧ q = base ++ ns

theorem defect?_of_locate_join {t : FileTree} {dir : Path} {ns : List String}
    (hns : ∀ n ∈ ns, IsName n) (hdir : dir.text.isEmpty = false) {place : Place}
    (h : t.locate (dir.join (ofNames ns)) = .ok place) : dir.defect? = none := by
  have hdefect : (dir.join (ofNames ns)).defect? = none := by
    unfold locate at h
    split at h
    · cases h
    · assumption
  obtain ⟨more, hmore⟩ : ∃ more, (dir.join (ofNames ns)).text = dir.text ++ more := by
    rw [join, isAbsolute_ofNames hns, if_neg (by decide)]
    exact ⟨_, String.append_assoc⟩
  unfold defect? at hdefect ⊢
  rw [hmore] at hdefect
  split at hdefect
  · cases hdefect
  · rename_i hnul
    split at hdefect
    · cases hdefect
    · split at hdefect
      · cases hdefect
      · rename_i hlong
        rw [String.utf8ByteSize_append] at hlong
        rw [if_neg, if_neg (by simp [hdir]), if_neg (by omega)]
        simp_all

theorem isBelow_of_locate {t : FileTree} {dir : Path} {ns : List String} (hns : ∀ n ∈ ns, IsName n)
    (hne : ns ≠ []) {q : Place} (h : t.locate (dir.join (ofNames ns)) = .ok q) : t.IsBelow dir q := by
  obtain ⟨base, hbase, rfl⟩ := locate_join hns hne h
  refine ⟨base, ns, ?_, hne, rfl⟩
  unfold baseOf
  cases hdir : dir.text.isEmpty with
  | true =>
    have hempty : dir.text = "" := String.isEmpty_iff.1 hdir
    have hstart : t.start dir = t.workingDirectory := by simp [start, isAbsolute, hempty]
    simpa [leading, hempty, splitSlashes, walk, hstart] using hbase
  | false =>
    have hdirectory : t.isDirectoryAt base = true := by
      unfold locate at h
      split at h
      · cases h
      · rw [splitSlashes_join dir hns hne, walk_append] at h
        have hstart : t.start (dir.join (ofNames ns)) = t.start dir := by
          simp [start, isAbsolute_join dir hns]
        rw [hstart, hbase] at h
        exact isDirectoryAt_of_walk (by simpa using hne) h
    rw [if_neg (by decide), locate, defect?_of_locate_join hns hdir h]
    have hlist : dir.text.toList ≠ [] := by
      intro e
      rw [String.toList_inj.1 (e.trans String.toList_empty.symm)] at hdir
      exact absurd hdir (by decide)
    by_cases hlast : dir.text.toList.getLast? = some '/'
    · -- behind the slash at the end the directory is looked up in itself
      have hsplit : splitSlashes dir.text.toList = dir.leading ++ [[]] := by
        obtain ⟨s, hs⟩ := List.getLast?_eq_some_iff.1 hlast
        simp [leading, hs, splitSlashes_append, splitSlashes]
      simp [hsplit, walk_append, hbase, Except.bind, walk, enter, hdirectory, isIdle]
    · have hsplit : splitSlashes dir.text.toList = dir.leading := by simp [leading, hlist, hlast]
      rw [hsplit]
      exact hbase

theorem Grows.isBelow {t u : FileTree} (h : Grows t u) {dir : Path} {q : Place}
    (hq : t.IsBelow dir q) : u.IsBelow dir q := by
  obtain ⟨base, ns, hbase, hne, rfl⟩ := hq
  refine ⟨base, ns, ?_, hne, rfl⟩
  unfold baseOf at hbase ⊢
  rw [h.workingDirectory]
  split
  · simp_all
  · simp_all [h.locate]

/-! ## Confined changes -/

/-- From `t` to `u`, files were made or changed only below `dir`. -/
structure Confined (dir : Path) (t u : FileTree) : Prop where
  grows : Grows t u
  below : ∀ q content, u.node? q = some (.file content) →
    t.node? q = some (.file content) ∨ u.IsBelow dir q

namespace Confined

theorem refl (dir : Path) (t : FileTree) : Confined dir t t :=
  ⟨(Extends.refl t).grows, fun _ _ h => .inl h⟩

theorem trans {dir : Path} {t u v : FileTree} (h : Confined dir t u) (h' : Confined dir u v) :
    Confined dir t v where
  grows := h.grows.trans h'.grows
  below q content hq := by
    rcases h'.below q content hq with hmiddle | hbelow
    · exact (h.below q content hmiddle).imp_right h'.grows.isBelow
    · exact .inr hbelow

end Confined

theorem AddsDirectories.confined {t u : FileTree} (h : AddsDirectories t u) (dir : Path) :
    Confined dir t u := ⟨h.grows, fun q content hq => .inl (h.file q content hq)⟩

/-- Writing a file below a directory is confined to it, also when the write fails half-way. -/
theorem confined_storeBelow (dir : Path) {p : Path} {ns : List String} (hp : p.IsNamed ns) (t : FileTree)
    (task : FileTask) (content : ByteArray) :
    Confined dir t (t.storeBelow (dir.join p) task content).1 := by
  obtain ⟨ds, n, rfl, rfl, hns⟩ := hp.exists_last
  have hne : ds ++ [n] ≠ [] := by simp
  have hsplit := splitSlashes_join dir hns hne
  rw [List.map_append, ← List.append_assoc] at hsplit
  have hmade := (addsDirectories_makeDirectories t
    ((dir.join (ofNames (ds ++ [n]))).parent?.getD ⟨""⟩)).confined dir
  unfold storeBelow
  dsimp only
  split
  · rename_i hv
    rwa [hv] at hmade
  · rename_i v hv
    rw [hv] at hmade
    split
    · exact hmade
    · rename_i w hw
      obtain ⟨target, htarget, rfl, hfree, hlocate⟩ :=
        write_spec (hns n (List.mem_append_right ds (List.mem_singleton_self n))) hsplit hw
      refine hmade.trans ⟨grows_put content htarget hfree, fun q content' hq => ?_⟩
      dsimp only at hq ⊢
      rw [node?_put htarget] at hq
      split at hq
      · rename_i heq
        rw [heq]
        exact .inr (isBelow_of_locate hns hne hlocate)
      · exact .inl hq

end FileTree

namespace Delivery

theorem confined_store (dir : Path) {p : Path} {ns : List String} (hp : p.IsNamed ns) (d : Delivery)
    (task : FileTask) (content : ByteArray) (done : Remark) :
    FileTree.Confined dir d.tree (d.store (dir.join p) task content done).tree := by
  have hstored := FileTree.confined_storeBelow dir hp d.tree task content
  unfold store
  split <;> simp_all

theorem confined_foldl {β : Type} {dir : Path} (step : Delivery → β → Delivery) (bs : List β)
    (h : ∀ d, ∀ b ∈ bs, FileTree.Confined dir d.tree (step d b).tree) (d : Delivery) :
    FileTree.Confined dir d.tree (bs.foldl step d).tree := by
  induction bs generalizing d with
  | nil => exact .refl _ _
  | cons b bs ih =>
    have hrest := ih (fun d b' hb' => h d b' (List.mem_cons_of_mem b hb')) (step d b)
    exact (h d b List.mem_cons_self).trans hrest

end Delivery

namespace Conversion

theorem confined_writeTo {c : Conversion} (hfiles : ∀ f ∈ c.files, ∃ ns, f.path.IsNamed ns)
    (hmeshes : ∀ m ∈ c.meshes, ∃ ns, m.file.IsNamed ns) (dir : Path) (t : FileTree) :
    FileTree.Confined dir t (c.writeTo dir t).tree := by
  have hfile (d : Delivery) {f : OutputFile} (hf : f ∈ c.files) :
      FileTree.Confined dir d.tree (d.storeFile dir f).tree := by
    obtain ⟨ns, hns⟩ := hfiles f hf
    unfold Delivery.storeFile
    dsimp only
    exact Delivery.confined_store dir hns _ _ _ _
  have hmesh (d : Delivery) {m : SeparateMesh} (hm : m ∈ c.meshes) :
      FileTree.Confined dir d.tree (d.storeMesh dir m).tree := by
    obtain ⟨ns, hns⟩ := hmeshes m hm
    unfold Delivery.storeMesh
    dsimp only
    split
    · exact .refl _ _
    · exact Delivery.confined_store dir hns _ _ _ _
  have hmain := Delivery.confined_foldl (Delivery.storeFile dir) (c.files.take 1)
    (fun d f hf => hfile d (List.mem_of_mem_take hf)) ⟨t, [], []⟩
  unfold writeTo
  dsimp only
  split
  · exact hmain
  · refine (hmain.trans (Delivery.confined_foldl _ _ (fun d f hf => ?_) _)).trans
      (Delivery.confined_foldl _ _ (fun d m hm => hmesh d hm) _)
    exact hfile d (List.mem_of_mem_drop hf)

/-- Every path of a conversion consists of names, whatever the scene includes and from where. So
whatever file the conversion makes or changes when it is written lies below the directory that it is
written to. -/
theorem writes_below {ctx : Context} {scene : Scene} {c : Conversion}
    (h : ofScene ctx scene = .ok (.ok c)) :
    (∀ p ∈ c.files.map OutputFile.path ++ c.meshes.map SeparateMesh.file, p.IsDescending) ∧
    ∀ (dir : Path) (t : FileTree) (q : Place) (content : ByteArray),
      (c.writeTo dir t).tree.node? q = some (.file content) →
        t.node? q = some (.file content) ∨ (c.writeTo dir t).tree.IsBelow dir q := by
  have hfiles : ∀ f ∈ c.files, ∃ ns, f.path.IsNamed ns := fun f hf => ⟨_, isNamed_of_mem_files h hf⟩
  have hmeshes : ∀ m ∈ c.meshes, ∃ ns, m.file.IsNamed ns := fun m hm => exists_isNamed_of_mem_meshes h hm
  refine ⟨fun p hp => ?_, fun dir t => (confined_writeTo hfiles hmeshes dir t).below⟩
  rcases List.mem_append.1 hp with hp | hp
  · obtain ⟨f, hf, rfl⟩ := List.mem_map.1 hp
    obtain ⟨ns, hns⟩ := hfiles f hf
    exact hns.isDescending
  · obtain ⟨m, hm, rfl⟩ := List.mem_map.1 hp
    obtain ⟨ns, hns⟩ := hmeshes m hm
    exact hns.isDescending

/-- The scene next to the input's directory, included by its absolute path, stays below the output
directory, where it takes the name of the main file. -/
theorem writes_below_absolute :
    ∃ c, ofScene neighbours (.text "Include \"/main.pbrt\"") = .ok (.ok c) ∧
      c.files.map OutputFile.path = [⟨"main.prc"⟩, ⟨"main.prc"⟩] ∧
      (∀ p ∈ c.files.map OutputFile.path ++ c.meshes.map SeparateMesh.file, p.IsDescending) ∧
      ∀ (dir : Path) (t : FileTree) (q : Place) (content : ByteArray),
        (c.writeTo dir t).tree.node? q = some (.file content) →
          t.node? q = some (.file content) ∨ (c.writeTo dir t).tree.IsBelow dir q := by
  let text := "Include \"/main.pbrt\""
  let st : Statement := ⟨1, "Include", some (.text "/main.pbrt"), .empty⟩
  let outside : IncludedFile := ⟨⟨"/main.pbrt"⟩, ⟨"/main.pbrt"⟩, ""⟩
  have hevents : Event.ofText neighbours.options.collapseLists text = [.statement st] := by
    rw [show neighbours.options.collapseLists = true from rfl]
    cbv
  have hempty : Event.ofText neighbours.options.collapseLists outside.text = [] := by
    with_unfolding_all rfl
  have hword : Action.ofWord st.word = .include_ := by decide
  let s₀ : State Float32 := (State.opening neighbours).moveTo neighbours.input 1
  let s₁ := (s₀.enterFile neighbours outside).2.leaveFile s₀ outside (s₀.enterFile neighbours outside).1
  have hrun : State.ofText neighbours text = s₁.finish := by
    have hfound (s : State Float32) : Inclusion.ofStatement neighbours
        [neighbours.files.absolute neighbours.input] s neighbours.input st = .ok (.enter outside) := by
      with_unfolding_all rfl
    unfold State.ofText State.read
    rw [hevents, State.run_include_empty rfl hword (hfound _) hempty, State.run_nil]
  have hc : ofScene neighbours (.text text) = .ok (.ok (ofState neighbours s₁.finish)) := by
    rw [ofScene, State.ofScene, hrun]
    rfl
  exact ⟨_, hc, by decide +kernel, writes_below hc⟩

end Conversion

end SceneConvert
