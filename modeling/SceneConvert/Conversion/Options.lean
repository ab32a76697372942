import SceneConvert.Document.Block
import SceneConvert.Files.Resolve
import SceneConvert.Report.Remark

/-!
# SceneConvert.Conversion.Options

What a conversion is told to do, and what stays fixed while it runs.

* `Options`, `LogFile`, `Context`.
* `Context.filesFor`: the files as a reader finds them. The log grows while the conversion runs; all
  other files stay as they are.
-/

namespace SceneConvert

structure Options where
  /-- Where to look for includes that are not next to the file that mentions them, seen from the
  directory of the input. -/
  includeOffset : Path := ⟨"./"⟩
  skipMeshes : Bool := false
  skipCurves : Bool := false
  skipPrimitives : Bool := false
  skipInstances : Bool := false
  skipLights : Bool := false
  skipMaterials : Bool := false
  skipTextures : Bool := false
  skipCamera : Bool := false
  /-- Leaves out the form around the scene and the render settings. -/
  skipWorld : Bool := false
  /-- Converts each file only once, however often it is included. -/
  skipRepeatedIncludes : Bool := false
  /-- Puts included files where they are included instead of in files of their own. -/
  singleFile : Bool := false
  /-- Meshes with more vertices get a file of their own. -/
  meshThreshold : Nat := Remark.usualThreshold
  /-- Reads a parameter's list of one element as that element. -/
  collapseLists : Bool := true
  indent : Indent := .tab

/-- A file that shows the journal of a conversion while it runs. -/
structure LogFile where
  place : Place
  /-- The least grave level that it shows. -/
  level : Level

/-- What stays fixed during a conversion. -/
structure Context where
  options : Options
  /-- The files before the conversion. -/
  files : FileTree
  /-- The directory that includes fall back to. -/
  includeRoot : Path
  /-- The scene file, as it was named. -/
  input : Path
  /-- The log, if one of the files is it. -/
  log : Option LogFile := none

namespace Context

def inputDirectory (ctx : Context) : Path := ctx.files.directoryOf ctx.input

/-- How deep the entries of the main output file stand in its text. -/
def mainDepth (ctx : Context) : Nat := if ctx.options.skipWorld then 0 else 1

def mainOutput (ctx : Context) : Path := ⟨ctx.input.stem?.getD "scene" ++ ".prc"⟩

def of (options : Options) (files : FileTree) (input : Path) : Context where
  options := options
  files := files
  includeRoot := files.includeRoot input options.includeOffset
  input := input

/-- The files as a reader of `p` finds them when the journal of the conversion is `journal`. -/
def filesFor (ctx : Context) (journal : Journal) (p : Path) : FileTree :=
  match ctx.log, ctx.files.locate p with
  | some log, .ok place =>
    if place = log.place then ctx.files.extend place (journal.text log.level).toUTF8 else ctx.files
  | _, _ => ctx.files

/-- No file comes or goes while the log grows. -/
theorem filePaths_filesFor (ctx : Context) (journal : Journal) (p : Path) :
    (ctx.filesFor journal p).filePaths = ctx.files.filePaths := by
  unfold filesFor
  split
  · split
    · exact FileTree.filePaths_extend _ _ _
    · rfl
  · rfl

end Context

end SceneConvert
