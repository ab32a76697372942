import SceneConvert.Command.Execute

/-!
# SceneConvert.Command.Mention

The paths that a run may look at, found before the run.

* `Arguments.paths`: the paths on the command line.
* `mentions`: the paths that the strings of a file may stand for: as they are, next to the file, and
  below the include root.
-/

namespace SceneConvert

namespace Arguments

def paths (a : Arguments) : List Path :=
  [a.input, a.output, a.logFile, a.options.includeOffset]

end Arguments

def quotedTexts (text : String) : List String :=
  (Lexeme.ofText text).filterMap fun x => match x.token with
    | .quoted s => some s
    | _ => none

/-- The paths that the strings of the file `source` may stand for. -/
def mentions (t : FileTree) (root source : Path) (text : String) : List Path :=
  (quotedTexts text).flatMap fun name =>
    [(t.directoryOf source).join ⟨name⟩, root.join ⟨name⟩]

end SceneConvert
