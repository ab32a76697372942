import SceneConvert.Conversion.Failure
import SceneConvert.Conversion.Result
import SceneConvert.Mesh.PlyBody

/-!
# SceneConvert.Conversion.Delivery

Writing the results of a conversion below a directory. Only the main file has to be written; what
becomes of every other file has no effect on the rest.

* `FileTree.storeBelow`: one file with the directories above it.
* `Conversion.writeTo`: all output files, then all meshes.
-/

namespace SceneConvert

/-- Writes a file, after making the directories above it. Directories that were made stay when the file
cannot be written. -/
def FileTree.storeBelow (t : FileTree) (p : Path) (task : FileTask) (content : ByteArray) :
    FileTree × Option Failure :=
  let parent := p.parent?.getD ⟨""⟩
  match t.makeDirectories parent with
  | (t, some e) => (t, some ⟨.makeDirectory parent, e⟩)
  | (t, none) =>
    match t.write p content with
    | .error e => (t, some ⟨task, e⟩)
    | .ok t => (t, none)

/-- The files while results are being written, what was said, and what failed. -/
structure Delivery where
  tree : FileTree
  notes : List Note
  failures : List Failure

namespace Delivery

def store (d : Delivery) (p : Path) (task : FileTask) (content : ByteArray) (done : Remark) :
    Delivery :=
  match d.tree.storeBelow p task content with
  | (tree, none) => { d with tree, notes := d.notes ++ [.remark done] }
  | (tree, some f) => { d with tree, failures := d.failures ++ [f] }

def storeFile (dir : Path) (d : Delivery) (f : OutputFile) : Delivery :=
  let p := dir.join f.path
  d.store p (.write p) f.text.toUTF8 (.wrote p)

/-- One more mesh. A mesh that lacks attributes has no file. -/
def storeMesh (dir : Path) (d : Delivery) (m : SeparateMesh) : Delivery :=
  let p := dir.join m.file
  match m.mesh.plyBytes? with
  | none => d
  | some content => d.store p (.createMesh p) content (.wroteMesh p m.mesh.vertexCount)

end Delivery

/-- The files after writing, the journal of it, and the failures, or the one failure that ended it. -/
structure Written where
  tree : FileTree
  journal : Journal
  outcome : Except Failure (List Diagnostic)

namespace Conversion

/-- Writes all results below `dir`. Nothing is written behind a main file that cannot be written. -/
def writeTo (c : Conversion) (dir : Path) (t : FileTree) : Written :=
  let start : Delivery := ⟨t, [], []⟩
  let main := (c.files.take 1).foldl (Delivery.storeFile dir) start
  match main.failures with
  | f :: _ => ⟨main.tree, main.notes.toArray, .error f⟩
  | [] =>
    let files := (c.files.drop 1).foldl (Delivery.storeFile dir) main
    let all := c.meshes.foldl (Delivery.storeMesh dir) files
    let failed := all.failures.map Failure.diagnostic
    ⟨all.tree, (all.notes ++ failed.map Note.report).toArray, .ok failed⟩

end Conversion

end SceneConvert
