import SceneConvert.Scene.Camera
import SceneConvert.Scene.Change
import SceneConvert.Scene.Material
import SceneConvert.Scene.Texture

/-!
# SceneConvert.Scene.Directive

From a statement to the state after it.

* `Verdict`: the change that a directive makes, and the problem with it, if there is one. Most
  directives that have a problem change nothing.
* `Verdict.ofStatement`: the verdict on each directive but the inclusion of a file.
* `State.apply`: surveys a statement, writes down what was found, and makes the change.
-/

namespace SceneConvert

/-- What becomes of a directive that was not refused. -/
structure Verdict (α : Type) where
  change : Change α
  problem : Option Problem
  /-- What is said once the change is made. -/
  afterwards : List Remark

namespace Survey

/-- A survey whose refusal is a result. -/
def attempt {β : Type} (survey : Survey β) : Survey (Except Problem β) :=
  tryCatch (Except.ok <$> survey) fun
    | .problem p => pure (.error p)
    | .overflow => throw .overflow

end Survey

namespace Verdict

variable {α : Type}

def accept (change : Change α) : Survey (Verdict α) := pure ⟨change, none, []⟩

/-- A directive that changes something although there is a problem with it. -/
def flawed (change : Change α) (p : Problem) : Survey (Verdict α) := pure ⟨change, some p, []⟩

/-- A directive whose parameters should all have been looked up. -/
def acceptUsed (change : Change α) : Survey (Verdict α) := do
  return ⟨change, none, ← Survey.unused⟩

variable [Scalar α]

def vector : List Float32 → Vec3 α
  | [x, y, z] => .ofFloats x y z
  | _ => ⟨0, 0, 0⟩

def translate (s : State α) (st : Statement) : Survey (Verdict α) := do
  let v ← st.numbers 3
  accept (.place (s.graphics.transform * .translate (vector v)))

def rotate (s : State α) (st : Statement) : Survey (Verdict α) := do
  let v ← st.numbers 4
  let t ← Survey.require .axisZero
    (Transform.rotate? (Scalar.ofFloat (v.headD (Binary32.ofInt 0))) (vector v.tail))
  accept (.place (s.graphics.transform * t))

def scale (s : State α) (st : Statement) : Survey (Verdict α) := do
  let v ← st.numbers 3
  let t ← Survey.require .scaleZero (Transform.scale? (vector v))
  accept (.place (s.graphics.transform * t))

def lookAt (s : State α) (st : Statement) : Survey (Verdict α) := do
  let v ← st.numbers 9
  let t ← Survey.require .upParallel
    (Transform.lookAt? (vector (v.take 3)) (vector ((v.drop 3).take 3)) (vector (v.drop 6)))
  accept (.place (s.graphics.transform * t))

def matrix (st : Statement) (singular : Problem) : Survey (Transform α) := do
  let v ← st.numbers 16
  Survey.require singular (Transform.ofColumnMajor? (v.map Scalar.ofFloat))

def coordSysTransform (s : State α) (st : Statement) : Survey (Verdict α) := do
  let name ← st.text
  let t ← Survey.require (.coordinateSystemUnknown name) (s.coordinateSystems.get? name)
  accept (.place t)

/-- The place of the camera gets its name also when the camera itself is left out or invalid. -/
def camera (ctx : Context) (s : State α) (st : Statement) : Survey (Verdict α) := do
  let kind ← st.text
  if ctx.options.skipCamera then accept (.camera none)
  else
    match ← (Survey.camera kind s.graphics.transform.inverse).attempt with
    | .error p => flawed (.camera none) p
    | .ok c =>
      let replaced := if s.camera.isSome then [Remark.cameraReplaced] else []
      return ⟨.camera (some c), none, (← Survey.unused) ++ replaced⟩

def film : Survey (Verdict α) := do
  let (width, height) ← Survey.film
  accept (.film width height)

/-- A setting that is one number of the directive. -/
def setting (key : SettingKey) (name : String) (default : Int) : Survey (Verdict α) := do
  let value ← Survey.integer name default
  accept (.setting key value)

/-- Every scope that is still open gets a remark. -/
def endWorld (s : State α) : Survey (Verdict α) := do
  s.saved.forM fun _ => Survey.remark .scopeUnclosed
  match s.openObject with
  | some o => flawed .endWorld (.objectOpen o.name)
  | none => accept .endWorld

def closeScope (s : State α) (st : Statement) : Survey (Verdict α) :=
  if s.saved.isEmpty then Survey.refuse (.scopeUnmatched st.word) else accept .closeScope

def beginObject (s : State α) (st : Statement) : Survey (Verdict α) := do
  let name ← st.text
  if s.objects.contains name then Survey.remark (.objectRedefined name)
  if s.openObject.isSome then flawed (.beginObject name) .objectNested
  else accept (.beginObject name)

def endObject (s : State α) : Survey (Verdict α) := do
  if s.openObject.isNone then Survey.report .objectEndStray
  if s.saved.isEmpty then flawed .endObject (.scopeUnmatched "ObjectEnd")
  else accept .endObject

def drawObject (ctx : Context) (s : State α) (st : Statement) : Survey (Verdict α) := do
  let name ← st.text
  if ctx.options.skipInstances then accept .nothing
  else if s.openObject.isSome then Survey.refuse .instanceInObject
  else
    let records ← Survey.require (.objectUnknown name) (s.objects.get? name)
    accept (.drawObject records)

/-- A kind that stands for no material at all. -/
def isNoMaterial (kind : String) : Bool := kind == "" || kind == "none" || kind == "interface"

/-- An anonymous material. Its fresh name is bound even when the material is refused. -/
def material (ctx : Context) (s : State α) (st : Statement) : Survey (Verdict α) := do
  let kind ← st.text
  if ctx.options.skipMaterials then accept .nothing
  else if isNoMaterial kind then accept (.bindMaterial none)
  else
    match ← (Survey.material s (s.counters.next .material) kind).attempt with
    | .error p => flawed (.freshMaterial none) p
    | .ok m => acceptUsed (.freshMaterial (some m))

def makeNamedMaterial (ctx : Context) (s : State α) (st : Statement) : Survey (Verdict α) := do
  let name ← st.text
  if ctx.options.skipMaterials then accept .nothing
  else
    let kind ← Survey.word "type" ""
    if kind.isEmpty then Survey.refuse (.materialKindMissing name)
    else
      if s.hasMaterial name then Survey.remark (.materialRedefined name)
      let m ← Survey.material s name kind
      acceptUsed (.namedMaterial name m)

def namedMaterial (ctx : Context) (s : State α) (st : Statement) : Survey (Verdict α) := do
  let name ← st.text
  if ctx.options.skipMaterials then accept .nothing
  else if s.hasMaterial name then accept (.bindMaterial (some name))
  else Survey.refuse (.materialUndeclared name)

def texture (ctx : Context) (s : State α) (source : Path) (st : Statement) :
    Survey (Verdict α) := do
  if ctx.options.skipTextures then accept .nothing
  else
    let name ← st.text
    let fragments ← Survey.texture ctx s source name
    let redefined := if s.hasTexture name then [Remark.textureRedefined name] else []
    return ⟨.texture name fragments, none, redefined ++ (← Survey.unused)⟩

def light (ctx : Context) (s : State α) (source : Path) (st : Statement) :
    Survey (Verdict α) := do
  let kind ← st.text
  if ctx.options.skipLights then accept .nothing
  else
    let l ← Survey.light ctx s source kind
    acceptUsed (.light l)

/-- The light of an area. Its fresh name is bound even when it is refused. -/
def areaLight (ctx : Context) (s : State α) (st : Statement) : Survey (Verdict α) := do
  let kind ← st.text
  if ctx.options.skipLights then accept .nothing
  else
    match ← (Survey.areaLight s kind).attempt with
    | .error p => flawed (.emission none) p
    | .ok radiance => acceptUsed (.emission (some radiance))

def shape (ctx : Context) (s : State α) (source : Path) (st : Statement) :
    Survey (Verdict α) := do
  let kind ← st.text
  if Survey.skipsShape ctx.options kind then accept .nothing
  else
    let plan ← Survey.shape ctx s source kind
    acceptUsed (.shape plan)

def ofStatement (ctx : Context) (s : State α) (source : Path) (st : Statement) :
    Survey (Verdict α) :=
  match Action.ofWord st.word with
  | .identity => accept (.place .identity)
  | .translate => translate s st
  | .rotate => rotate s st
  | .scale => scale s st
  | .lookAt => lookAt s st
  | .transform => do accept (.place (← matrix st .transformSingular))
  | .concatTransform => do
    accept (.place (s.graphics.transform * (← matrix st .concatSingular)))
  | .coordinateSystem => do accept (.nameSystem (← st.text))
  | .coordSysTransform => coordSysTransform s st
  | .camera => camera ctx s st
  | .film => film
  | .sampler => setting .sampleCount "pixelsamples" 16
  | .integrator => setting .rayDepth "maxdepth" 5
  | .worldBegin => accept .beginWorld
  | .worldEnd => endWorld s
  | .attributeBegin | .transformBegin => accept .openScope
  | .attributeEnd | .transformEnd => closeScope s st
  | .objectBegin => beginObject s st
  | .objectEnd => endObject s
  | .objectInstance => drawObject ctx s st
  | .material => material ctx s st
  | .makeNamedMaterial => makeNamedMaterial ctx s st
  | .namedMaterial => namedMaterial ctx s st
  | .texture => texture ctx s source st
  | .lightSource => light ctx s source st
  | .areaLightSource => areaLight ctx s st
  | .shape => shape ctx s source st
  | .reverseOrientation => accept .flip
  | .include_ => accept .nothing
  | .unsupported => Survey.refuse (.directiveUnsupported st.word)
  | .ignored => do
    Survey.remark (.directiveIgnored st.word)
    accept .nothing
  | .unknown => Survey.refuse (.directiveUnknown st.word)

end Verdict

namespace State

variable {α : Type} [Scalar α]

def moveTo (s : State α) (source : Path) (line : Nat) : State α := { s with location := (source, line) }

/-- Takes over a finding about the directive at the current place. -/
def record (s : State α) : Finding → State α
  | .remark r => s.remark r
  | .problem p => s.reportProblem p
  | .spectrum p =>
    { s with counters := s.counters.add 1 .spectrum }.emit
      (.spectrum p.name p.wavelengths p.values)

/-- The state after the result of a survey. -/
def conclude (s : State α) (options : Options) : Except Refusal (Verdict α) → State α
  | .ok v =>
    let s := v.afterwards.foldl remark (v.change.commit options s)
    match v.problem with
    | none => s
    | some p => s.reportProblem p
  | .error (.problem p) => s.reportProblem p
  | .error .overflow => { s with halted := true }

/-- The state after a statement of the file `source`, if it does not include a file. -/
def apply (ctx : Context) (source : Path) (s : State α) (st : Statement) : State α :=
  let s := s.moveTo source st.line
  let (result, findings) :=
    Survey.of (Verdict.ofStatement ctx s source st) st.parameters s.counters.spectrum
  (findings.items.toList.foldl record s).conclude ctx.options result

end State

end SceneConvert
