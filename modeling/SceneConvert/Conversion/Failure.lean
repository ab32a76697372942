import SceneConvert.Report.Diagnostic
import SceneConvert.Files.Tree

/-!
# SceneConvert.Conversion.Failure

Work on files that did not succeed.
-/

namespace SceneConvert

inductive FileTask where
  | readScene (p : Path)
  | openLog (p : Path)
  | makeOutputDirectory (p : Path)
  | makeDirectory (p : Path)
  | write (p : Path)
  | createMesh (p : Path)

structure Failure where
  task : FileTask
  cause : FileError

namespace FileTask

def message : FileTask → String
  | readScene p => "Failed to read scene file \"" ++ p.text ++ "\""
  | openLog p => "Failed to open log file \"" ++ p.text ++ "\""
  | makeOutputDirectory p => "Failed to create output directory \"" ++ p.text ++ "\""
  | makeDirectory p => "Failed to create directory \"" ++ p.text ++ "\""
  | write p => "Failed to write \"" ++ p.text ++ "\""
  | createMesh p => "Failed to create PLY file \"" ++ p.text ++ "\""

end FileTask

namespace Failure

/-- The message and its cause on one line. -/
def chain (f : Failure) : String := f.task.message ++ ": " ++ f.cause.message

/-- The message and its cause as a failing program shows them. -/
def report (f : Failure) : String :=
  "Error: " ++ f.task.message ++ "\n\nCaused by:\n    " ++ f.cause.message ++ "\n"

def diagnostic (f : Failure) : Diagnostic := ⟨.io, none, none, f.chain⟩

end Failure

end SceneConvert
