import SceneConvert.Document.Render
import SceneConvert.Scene.Finish

/-!
# SceneConvert.Conversion.Result

What a conversion gives: the texts of the output files, the meshes with files of their own, and the
journal.

* `Conversion.ofState`: all of it, from the state at the end of the scene.
* `Conversion.ending`: the same, or the journal of a conversion that stopped before.
-/

namespace SceneConvert

structure OutputFile where
  /-- Seen from the output directory. -/
  path : Path
  text : String

structure Conversion where
  /-- The main file first, then one file for each included one, in the order in which they ended. -/
  files : List OutputFile
  meshes : List SeparateMesh
  journal : Journal

namespace Conversion

/-- The text of the main file if it ended here. -/
def mainText (ctx : Context) (entries : List (Entry Float32)) : String :=
  fileText ctx.options.indent (!ctx.options.skipWorld) entries

/-- The lines of the main file so far, the form of the scene being open. -/
def draft (ctx : Context) (entries : List (Entry Float32)) : Sheet :=
  let start := if ctx.options.skipWorld then Sheet.empty else Sheet.empty.open_ "scene"
  (entries.map Entry.block).foldl Sheet.putBlock start

def includedText (ctx : Context) (entries : List (Entry Float32)) : String :=
  fileText ctx.options.indent false entries

def ofState (ctx : Context) (s : State Float32) : Conversion where
  files :=
    ⟨ctx.mainOutput, mainText ctx s.page.toList⟩ ::
      s.finished.toList.map fun page => ⟨page.file, includedText ctx page.entries⟩
  meshes := s.meshes.toList
  journal := s.journal

/-- The journal of a conversion that stopped before its end: at the first indented line, when no text
has room for it, or at a mesh file. -/
def stopped? (ctx : Context) (s : State Float32) : Option Journal :=
  let overflow := if Indent.maxWidth < ctx.options.indent.width then s.firstIndented else none
  match overflow with
  | some n => some (s.journal.extract 0 n)
  | none => if s.halted then some s.journal else none

/-- The conversion that ended in `s`, or the journal of one that stopped before. -/
def ending (ctx : Context) (s : State Float32) : Except Journal Conversion :=
  match stopped? ctx s with
  | some journal => .error journal
  | none => .ok (ofState ctx s)

def file? (c : Conversion) (p : Path) : Option String :=
  (c.files.find? fun f => f.path.same p).map OutputFile.text

def main? (c : Conversion) : Option String := c.files.head?.map OutputFile.text

def diagnostics (c : Conversion) : List Diagnostic := c.journal.diagnostics

end Conversion

end SceneConvert
