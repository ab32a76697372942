import SceneConvert.Scene.Run

/-!
# SceneConvert.Scene.Finish

The end of a scene: the camera comes last, when the aspect of the film is known.
-/

namespace SceneConvert

namespace State

variable {α : Type}

/-- Width over height of the image: what the camera says, else what the film says, else one. -/
def aspect (s : State α) (c : Camera α) : Float32 :=
  ((c.frameAspect <|> s.filmAspect).getD (Binary32.ofInt 1))

def closeObject (s : State α) : State α :=
  match s.openObject with
  | none => s
  | some o => { s with openObject := none }.reportProblem (.objectOpen o.name)

def writeCamera (s : State α) : State α :=
  match s.camera with
  | none => s
  | some c => (s.write .activeCamera).emit (.camera c (s.aspect c))

/-- The state at the end of the scene. A state that was halted stays as it is. -/
def finish (s : State α) : State α := if s.halted then s else s.closeObject.writeCamera

def pages (ctx : Context) (s : State α) : List (Page α) :=
  ⟨ctx.mainOutput, s.page.toList⟩ :: s.finished.toList

variable [Scalar α]

/-- The state before the first directive, the include root being known. -/
def opening (ctx : Context) : State α :=
  (initial ctx.input ctx.mainDepth).remark (.rootSet ctx.includeRoot)

/-- The final state of converting a text as if it were the input. -/
def ofText (ctx : Context) (text : String) : State α :=
  ((opening ctx).read ctx ctx.input text).finish

/-- The final state of converting the input. -/
def ofInput (ctx : Context) : Except FileError (State α) :=
  (ctx.files.readText ctx.input).map fun text =>
    (((opening ctx).remark (.started ctx.input ctx.includeRoot)).read ctx ctx.input text).finish

end State

end SceneConvert
