import SceneConvert.Files.Tree
import SceneConvert.Path.Normal

/-!
# SceneConvert.Files.Resolve

How the files that a scene names are found.

* `absolute`: the absolute form of a path, through the tree where the path exists.
* `directoryOf`: the directory that a file lies in.
* `include?`: the file that an include names: an absolute name as it is, any other next to the file
  that mentions it, then below the include root.
* `fileFor`: the same for other files, which need not exist.
-/

namespace SceneConvert

namespace FileTree

/-- The absolute form of a path. A path that does not exist is taken from the working directory and
normalized. -/
def absolute (t : FileTree) (p : Path) : Path :=
  match t.locate p with
  | .ok place => pathOf place
  | .error _ => if p.isAbsolute then p.normalize else (t.currentPath.join p).normalize

/-- A file that can be read has one of the paths of the tree as its absolute form. -/
theorem absolute_mem_filePaths {t : FileTree} {p : Path} {text : String}
    (h : t.readText p = .ok text) : t.absolute p ∈ t.filePaths := by
  obtain ⟨place, hl, hp⟩ := locate_of_readText h
  simp only [absolute, hl]
  exact List.mem_map_of_mem hp

def directoryOf (t : FileTree) (p : Path) : Path := (t.absolute p).parent?.getD ⟨"."⟩

/-- The directory that includes fall back to: `offset` seen from the directory of `input`. -/
def includeRoot (t : FileTree) (input offset : Path) : Path :=
  ((t.directoryOf input).join offset).normalize

/-- The file that `referrer` includes under this name. -/
def include? (t : FileTree) (referrer : Path) (name : String) (root : Path) : Option Path :=
  let p : Path := ⟨name⟩
  if p.isAbsolute then if t.isFile p then some p else none
  else
    let beside := (t.directoryOf referrer).join p
    let rooted := root.join p
    if t.isFile beside then some beside.normalize
    else if t.isFile rooted then some rooted.normalize
    else none

/-- The file that `referrer` means by this name; one that does not exist is placed next to it. -/
def fileFor (t : FileTree) (referrer : Path) (name : String) (root : Path) : Path :=
  match t.include? referrer name root with
  | some p => p
  | none =>
    let p : Path := ⟨name⟩
    if p.isAbsolute then p else ((t.directoryOf referrer).join p).normalize

end FileTree

namespace Path

/-- Where the output of the included file `p` goes, seen from the output directory: the names of `p`
below `base`, or its file name alone when it lies elsewhere, with the extension of an output file. -/
def outputFor (p base : Path) : Path :=
  let names : List String := match p.below? base with
    | some cs => cs.filterMap fun c => match c with
      | .name s => some s
      | _ => none
    | none => p.fileName?.toList
  let names := if names.isEmpty then ["include"] else names
  (ofComponents (names.map .name)).withExtension "prc"

/-- The path with `_n` between the stem of its file name and its extension. -/
def numbered (p : Path) (n : Nat) : Path :=
  let ext := match p.extension? with
    | some ext => "." ++ ext
    | none => ""
  p.withFileName (p.stem?.getD "" ++ "_" ++ toString n ++ ext)

end Path

end SceneConvert
