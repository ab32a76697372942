import Mathlib.Data.List.Basic
import SceneConvert.Conversion.Delivery
import SceneConvert.Proofs.Files.Tree

/-!
# SceneConvert.Proofs.Files.Delivery

Writing the results of a conversion one after the other, of which some may fail.

* `FileTree.Holds`: the file of some names has a content. `storeBelow_spec`: a file that is stored has its
  content, and the others keep theirs.
* `Deliverable`: what is to be in one file.
* `FileTree.attempt`, `FileTree.attemptAll`: one deliverable, and those of a list, each tried in the tree that
  the ones before it have left.
* `holds_attemptAll`: a file keeps its content until a deliverable is written at its path.
* `read_attemptAll`: the last deliverable that is written at a path can be read there.
* `Delivery.Tries`: a step of a delivery that is such an attempt, or several of them.
* `Conversion.writeTo_of_main_failed`, `writeTo_of_main_written`: what is tried when a conversion is written.
* `readText_writeTo`: files with different names can all be read back.
-/

namespace SceneConvert

open SceneConvert.Path FileTree

theorem fromUTF8?_toUTF8 (s : String) : String.fromUTF8? s.toUTF8 = some s := by
  rw [String.fromUTF8?, String.toUTF8_eq_toByteArray, dif_pos s.isValidUTF8]
  rfl

/-- The path of some names, at least one. -/
def Path.IsNamed (p : Path) (ns : List String) : Prop :=
  p = ofNames ns ∧ ns ≠ [] ∧ ∀ m ∈ ns, IsName m

theorem Path.IsNamed.exists_last {p : Path} {ns : List String} (h : p.IsNamed ns) :
    ∃ ds n, ns = ds ++ [n] ∧ p = ofNames (ds ++ [n]) ∧ ∀ m ∈ ds ++ [n], IsName m := by
  obtain ⟨rfl, hne, hnames⟩ := h
  have hns := List.dropLast_concat_getLast hne
  exact ⟨ns.dropLast, ns.getLast hne, hns.symm, by rw [hns], by rwa [hns]⟩

namespace FileTree

/-- The file of some names below a directory has a content. -/
def Holds (dir : Path) (t : FileTree) (ns : List String) (content : ByteArray) : Prop :=
  ∃ place, t.locate (dir.join (ofNames ns)) = .ok place ∧ t.node? place = some (.file content)

theorem Holds.read {dir : Path} {t : FileTree} {ns : List String} {content : ByteArray}
    (h : t.Holds dir ns content) : t.read (dir.join (ofNames ns)) = .ok content := by
  obtain ⟨place, hplace, hnode⟩ := h
  simp [FileTree.read, find, hplace, hnode, Except.bind]

theorem storeBelow_spec {dir : Path} {t u : FileTree} {ds : List String} {n : String}
    (hns : ∀ m ∈ ds ++ [n], IsName m) {task : FileTask} {content : ByteArray}
    (h : t.storeBelow (dir.join (ofNames (ds ++ [n]))) task content = (u, none)) :
    u.Holds dir (ds ++ [n]) content ∧
      ∀ ns content', (∀ m ∈ ns, IsName m) → ns ≠ [] → ns ≠ ds ++ [n] → t.Holds dir ns content' →
        u.Holds dir ns content' := by
  have hne : ds ++ [n] ≠ [] := by simp
  have hsplit := splitSlashes_join dir hns hne
  rw [List.map_append, ← List.append_assoc] at hsplit
  unfold storeBelow at h
  dsimp only at h
  generalize hparent : (dir.join (ofNames (ds ++ [n]))).parent?.getD ⟨""⟩ = parent at h
  have hextends := (addsDirectories_makeDirectories t parent).toExtends
  split at h
  · cases h
  · rename_i v hv
    rw [hv] at hextends
    split at h
    · cases h
    · rename_i w hw
      cases h
      obtain ⟨target, htarget, rfl, hfree, hlocate⟩ :=
        write_spec (hns n (List.mem_append_right ds (List.mem_singleton_self n))) hsplit hw
      have hgrows := grows_put content htarget hfree
      refine ⟨⟨target, hlocate, by simp [node?_put htarget]⟩, ?_⟩
      intro ns content' hnames hnil hother ⟨place, hplace, hnode⟩
      have hplace' := (hextends.grows.trans hgrows).locate hplace
      refine ⟨place, hplace', ?_⟩
      rw [node?_put htarget, if_neg]
      · exact hextends.node place _ hnode
      · rintro rfl
        exact hother (locate_join_inj hnames hns hnil hne hplace' hlocate)

end FileTree

/-- What is to be in one file. -/
structure Deliverable where
  /-- Seen from the output directory. -/
  path : Path
  task : Path → FileTask
  content : ByteArray

def OutputFile.deliverable (f : OutputFile) : Deliverable := ⟨f.path, .write, f.text.toUTF8⟩

def SeparateMesh.deliverable? (m : SeparateMesh) : Option Deliverable :=
  m.mesh.plyBytes?.map fun content => ⟨m.file, .createMesh, content⟩

theorem SeparateMesh.path_of_deliverable? {m : SeparateMesh} {o : Deliverable}
    (h : m.deliverable? = some o) : o.path = m.file := by
  obtain ⟨content, -, rfl⟩ := Option.map_eq_some_iff.1 h
  rfl

namespace FileTree

variable {dir : Path} {t u : FileTree} {o : Deliverable} {os : List Deliverable}

/-- Tries to write one deliverable below `dir`. -/
@[irreducible]
def attempt (dir : Path) (t : FileTree) (o : Deliverable) : FileTree × Option Failure :=
  t.storeBelow (dir.join o.path) (o.task (dir.join o.path)) o.content

/-- Tries to write all deliverables below `dir`, whatever becomes of the ones before. -/
def attemptAll (dir : Path) (t : FileTree) : List Deliverable → FileTree × List (Deliverable × Option Failure)
  | [] => (t, [])
  | o :: os =>
    let first := t.attempt dir o
    let rest := first.1.attemptAll dir os
    (rest.1, (o, first.2) :: rest.2)

theorem attemptAll_cons (dir : Path) (t : FileTree) (o : Deliverable) (os : List Deliverable) :
    t.attemptAll dir (o :: os) =
      (((t.attempt dir o).1.attemptAll dir os).1,
        (o, (t.attempt dir o).2) :: ((t.attempt dir o).1.attemptAll dir os).2) := rfl

theorem attemptAll_singleton (dir : Path) (t : FileTree) (o : Deliverable) :
    t.attemptAll dir [o] = ((t.attempt dir o).1, [(o, (t.attempt dir o).2)]) := rfl

theorem map_fst_attemptAll (dir : Path) (t : FileTree) (os : List Deliverable) :
    (t.attemptAll dir os).2.map Prod.fst = os := by
  induction os generalizing t with
  | nil => rfl
  | cons o os ih => exact congrArg (o :: ·) (ih _)

theorem attemptAll_append (dir : Path) (t : FileTree) (os os' : List Deliverable) :
    t.attemptAll dir (os ++ os') =
      (((t.attemptAll dir os).1.attemptAll dir os').1,
        (t.attemptAll dir os).2 ++ ((t.attemptAll dir os).1.attemptAll dir os').2) := by
  induction os generalizing t with
  | nil => rfl
  | cons o os ih => simp only [List.cons_append, attemptAll_cons, ih]

/-! ## Files that stay -/

/-- Directories may have been made for a file that cannot be written, but no file has changed. -/
theorem addsDirectories_of_failed {p : Path} {task : FileTask} {content : ByteArray} {f : Failure}
    (h : t.storeBelow p task content = (u, some f)) : AddsDirectories t u := by
  have hmade := addsDirectories_makeDirectories t (p.parent?.getD ⟨""⟩)
  unfold storeBelow at h
  dsimp only at h
  split at h
  · rename_i v e hv
    cases h
    rwa [hv] at hmade
  · rename_i v hv
    rw [hv] at hmade
    split at h <;> cases h
    exact hmade

theorem addsDirectories_attempt (h : (t.attempt dir o).2 ≠ none) :
    AddsDirectories t (t.attempt dir o).1 := by
  unfold attempt at h ⊢
  cases hstore : t.storeBelow (dir.join o.path) (o.task (dir.join o.path)) o.content with
  | mk u failure =>
    rw [hstore] at h
    obtain ⟨f, rfl⟩ : ∃ f, failure = some f := Option.ne_none_iff_exists'.1 h
    exact addsDirectories_of_failed hstore

theorem Extends.holds (h : Extends t u) {ns : List String} {content : ByteArray}
    (hold : t.Holds dir ns content) : u.Holds dir ns content := by
  obtain ⟨place, hplace, hnode⟩ := hold
  exact ⟨place, h.grows.locate hplace, h.node place _ hnode⟩

theorem holds_of_written {ns : List String} (ho : o.path.IsNamed ns)
    (h : (t.attempt dir o).2 = none) : (t.attempt dir o).1.Holds dir ns o.content := by
  obtain ⟨ds, n, rfl, hpath, hns⟩ := ho.exists_last
  unfold attempt at h ⊢
  rw [hpath] at h ⊢
  cases hstore : t.storeBelow (dir.join (ofNames (ds ++ [n]))) (o.task _) o.content with
  | mk u failure =>
    rw [hstore] at h
    obtain rfl : failure = none := h
    exact (storeBelow_spec hns hstore).1

theorem holds_attempt {ms ns : List String} {p : Path} {content : ByteArray} (ho : o.path.IsNamed ms)
    (hp : p.IsNamed ns) (hold : t.Holds dir ns content)
    (hother : (t.attempt dir o).2 = none → o.path ≠ p) :
    (t.attempt dir o).1.Holds dir ns content := by
  obtain ⟨ds, n, rfl, hpath, hms⟩ := ho.exists_last
  unfold attempt at hother ⊢
  rw [hpath] at hother ⊢
  cases hstore : t.storeBelow (dir.join (ofNames (ds ++ [n]))) (o.task _) o.content with
  | mk u failure =>
    rw [hstore] at hother
    cases failure with
    | some f => exact (addsDirectories_of_failed hstore).toExtends.holds hold
    | none =>
      refine (storeBelow_spec hms hstore).2 ns content hp.2.2 hp.2.1 ?_ hold
      rintro rfl
      exact hother rfl hp.1.symm

theorem holds_attemptAll (hos : ∀ o ∈ os, ∃ ms, o.path.IsNamed ms) {ns : List String} {p : Path}
    {content : ByteArray} (hp : p.IsNamed ns) (hold : t.Holds dir ns content)
    (hothers : ∀ a ∈ (t.attemptAll dir os).2, a.2 = none → a.1.path ≠ p) :
    (t.attemptAll dir os).1.Holds dir ns content := by
  induction os generalizing t with
  | nil => exact hold
  | cons o os ih =>
    rw [attemptAll_cons] at hothers ⊢
    dsimp only at hothers ⊢
    obtain ⟨ho, hos⟩ := List.forall_mem_cons.1 hos
    obtain ⟨hfirst, hothers⟩ := List.forall_mem_cons.1 hothers
    dsimp only at hfirst
    obtain ⟨ms, hms⟩ := ho
    exact ih hos (holds_attempt hms hp hold hfirst) hothers

/-- A deliverable that is written can be read in the end, unless a later one is written at its path. Those
that fail make no difference. -/
theorem read_attemptAll (hos : ∀ o ∈ os, ∃ ms, o.path.IsNamed ms)
    {before after : List (Deliverable × Option Failure)}
    (hsplit : (t.attemptAll dir os).2 = before ++ (o, none) :: after)
    (hlast : ∀ a ∈ after, a.2 = none → a.1.path ≠ o.path) :
    (t.attemptAll dir os).1.read (dir.join o.path) = .ok o.content := by
  induction os generalizing t before with
  | nil => simp [attemptAll] at hsplit
  | cons o' os ih =>
    rw [attemptAll_cons] at hsplit ⊢
    dsimp only at hsplit ⊢
    obtain ⟨ho, hos⟩ := List.forall_mem_cons.1 hos
    cases before with
    | nil =>
      obtain ⟨hfirst, rfl⟩ := List.cons.inj hsplit
      obtain ⟨rfl, hwritten⟩ := Prod.mk.inj hfirst
      obtain ⟨ns, hns⟩ := ho
      rw [hns.1]
      exact (holds_attemptAll hos hns (holds_of_written hns hwritten) hlast).read
    | cons a before => exact ih hos (List.cons.inj hsplit).2

end FileTree

/-! ## Deliveries -/

namespace Delivery

variable {dir : Path} {step step' : Delivery → Delivery} {os os' : List Deliverable}

/-- The step of a delivery is an attempt at these deliverables. -/
structure Tries (dir : Path) (step : Delivery → Delivery) (os : List Deliverable) : Prop where
  tree : ∀ d, (step d).tree = (d.tree.attemptAll dir os).1
  failures : ∀ d, (step d).failures = d.failures ++ (d.tree.attemptAll dir os).2.filterMap Prod.snd

theorem tries_nothing : Tries dir (fun d => d) [] :=
  ⟨fun _ => rfl, fun d => (List.append_nil d.failures).symm⟩

theorem Tries.andThen (h : Tries dir step os) (h' : Tries dir step' os') :
    Tries dir (fun d => step' (step d)) (os ++ os') where
  tree d := by rw [h'.tree, h.tree, attemptAll_append]
  failures d := by
    rw [h'.failures, h.failures, h.tree, attemptAll_append, List.filterMap_append, List.append_assoc]

theorem tries_foldl {β : Type} {step : Delivery → β → Delivery} {os : β → List Deliverable}
    (h : ∀ b, Tries dir (fun d => step d b) (os b)) (bs : List β) :
    Tries dir (fun d => bs.foldl step d) (bs.flatMap os) := by
  induction bs with
  | nil => exact tries_nothing
  | cons b bs ih => exact (h b).andThen ih

theorem tries_store (dir : Path) (o : Deliverable) (done : Remark) :
    Tries dir (fun d => d.store (dir.join o.path) (o.task (dir.join o.path)) o.content done) [o] := by
  constructor <;>
  · intro d
    rw [attemptAll_singleton]
    unfold store attempt
    generalize d.tree.storeBelow (dir.join o.path) (o.task (dir.join o.path)) o.content = stored
    rcases stored with ⟨u, _ | f⟩ <;> simp

theorem tries_storeFile (dir : Path) (f : OutputFile) :
    Tries dir (fun d => storeFile dir d f) [f.deliverable] := by
  unfold storeFile
  exact tries_store dir f.deliverable (.wrote (dir.join f.path))

theorem tries_storeMesh (dir : Path) (m : SeparateMesh) :
    Tries dir (fun d => storeMesh dir d m) m.deliverable?.toList := by
  unfold storeMesh SeparateMesh.deliverable?
  cases m.mesh.plyBytes? with
  | none => exact tries_nothing
  | some content =>
    exact tries_store dir ⟨m.file, .createMesh, content⟩ (.wroteMesh (dir.join m.file) m.mesh.vertexCount)

end Delivery

namespace Conversion

open Delivery

/-- All that is to be written. -/
def deliverables (c : Conversion) : List Deliverable :=
  c.files.map OutputFile.deliverable ++ c.meshes.filterMap SeparateMesh.deliverable?

variable {c : Conversion} {main : OutputFile} {includes : List OutputFile} {dir : Path} {t : FileTree}

/-- Nothing else is tried if the main file cannot be written. -/
theorem writeTo_of_main_failed (hfiles : c.files = main :: includes) {f : Failure}
    (hfailed : (t.attempt dir main.deliverable).2 = some f) :
    (c.writeTo dir t).outcome = .error f ∧ (c.writeTo dir t).tree = (t.attempt dir main.deliverable).1 := by
  have htries := tries_storeFile dir main
  have htree := htries.tree ⟨t, [], []⟩
  have hfailures : (storeFile dir ⟨t, [], []⟩ main).failures = [f] := by
    rw [htries.failures, attemptAll_singleton, hfailed]
    rfl
  unfold writeTo
  simp only [hfiles, List.take_succ_cons, List.take_zero, List.foldl_cons, List.foldl_nil, hfailures]
  rw [attemptAll_singleton] at htree
  exact ⟨trivial, htree⟩

theorem writeTo_of_main_written (hfiles : c.files = main :: includes)
    (hwritten : (t.attempt dir main.deliverable).2 = none) :
    (c.writeTo dir t).outcome =
        .ok ((t.attemptAll dir c.deliverables).2.filterMap fun a => a.2.map Failure.diagnostic) ∧
      (c.writeTo dir t).tree = (t.attemptAll dir c.deliverables).1 := by
  have hmain := tries_storeFile dir main
  have hfailures : (storeFile dir ⟨t, [], []⟩ main).failures = [] := by
    rw [hmain.failures, attemptAll_singleton, hwritten]
    rfl
  have hall := (hmain.andThen (tries_foldl (tries_storeFile dir) includes)).andThen
    (tries_foldl (tries_storeMesh dir) c.meshes)
  have hdeliverables : [main.deliverable] ++ includes.flatMap (fun f => [f.deliverable]) ++
      c.meshes.flatMap (fun m => m.deliverable?.toList) = c.deliverables := by
    rw [deliverables, hfiles, List.filterMap_eq_flatMap_toList, ← List.map_eq_flatMap]
    rfl
  rw [hdeliverables] at hall
  unfold writeTo
  simp only [hfiles, List.take_succ_cons, List.take_zero, List.foldl_cons, List.foldl_nil, hfailures,
    List.drop_succ_cons, List.drop_zero]
  rw [hall.tree, hall.failures, List.nil_append, List.map_filterMap]
  exact ⟨rfl, rfl⟩

theorem writeTo_ok (h : (c.writeTo dir t).outcome = .ok []) (hfiles : c.files = main :: includes) :
    (∀ a ∈ (t.attemptAll dir c.deliverables).2, a.2 = none) ∧
      (c.writeTo dir t).tree = (t.attemptAll dir c.deliverables).1 := by
  cases hmain : (t.attempt dir main.deliverable).2 with
  | some f =>
    rw [(writeTo_of_main_failed hfiles hmain).1] at h
    cases h
  | none =>
    obtain ⟨houtcome, htree⟩ := writeTo_of_main_written hfiles hmain
    rw [houtcome] at h
    refine ⟨fun a ha => ?_, htree⟩
    have hnone := List.filterMap_eq_nil_iff.1 (Except.ok.inj h) a ha
    exact Option.map_eq_none_iff.1 hnone

/-- Of output files with different names every one can be read back, unless a write failed. -/
theorem readText_writeTo (hnamed : ∀ o ∈ c.deliverables, ∃ ns, o.path.IsNamed ns)
    (hdistinct : c.files.Pairwise fun f g => f.path ≠ g.path)
    (hmeshes : ∀ f ∈ c.files, ∀ m ∈ c.meshes, m.file ≠ f.path)
    (h : (c.writeTo dir t).outcome = .ok []) {f : OutputFile} (hf : f ∈ c.files) :
    (c.writeTo dir t).tree.readText (dir.join f.path) = .ok f.text := by
  obtain ⟨main, includes, hfiles⟩ := List.exists_cons_of_ne_nil (List.ne_nil_of_mem hf)
  obtain ⟨hwritten, htree⟩ := writeTo_ok h hfiles
  obtain ⟨before, after, hsplit⟩ := List.append_of_mem hf
  have hafter : ∀ g ∈ after, f.path ≠ g.path := by
    rw [hsplit, List.pairwise_append] at hdistinct
    exact (List.pairwise_cons.1 hdistinct.2.1).1
  have hdeliverables : c.deliverables = before.map OutputFile.deliverable ++ f.deliverable ::
      (after.map OutputFile.deliverable ++ c.meshes.filterMap SeparateMesh.deliverable?) := by
    rw [deliverables, hsplit, List.map_append, List.map_cons, List.append_assoc, List.cons_append]
  have htried := (t.map_fst_attemptAll dir c.deliverables).trans hdeliverables
  obtain ⟨early, late, hattempts, -, hlate⟩ := List.map_eq_append_iff.1 htried
  obtain ⟨⟨o, failure⟩, behind, rfl, rfl, hbehind⟩ := List.map_eq_cons_iff.1 hlate
  obtain rfl : failure = none := hwritten _ (hattempts ▸ List.mem_append_right early List.mem_cons_self)
  have hread := read_attemptAll hnamed hattempts fun a ha _ hpath => ?_
  · rw [htree, readText, show f.path = f.deliverable.path from rfl, hread]
    simp only [Except.bind, OutputFile.deliverable, fromUTF8?_toUTF8]
  · have hmem : a.1 ∈ after.map OutputFile.deliverable ++ c.meshes.filterMap SeparateMesh.deliverable? :=
      hbehind ▸ List.mem_map_of_mem ha
    rcases List.mem_append.1 hmem with hmem | hmem
    · obtain ⟨g, hg, hgo⟩ := List.mem_map.1 hmem
      exact hafter g hg (hpath.symm.trans (congrArg Deliverable.path hgo.symm))
    · obtain ⟨m, hm, hmo⟩ := List.mem_filterMap.1 hmem
      exact hmeshes f hf m hm ((SeparateMesh.path_of_deliverable? hmo).symm.trans hpath)

end Conversion

end SceneConvert
