import SceneConvert.Scene.Light
import SceneConvert.Scene.Shape

/-!
# SceneConvert.Scene.Change

What an accepted directive does to the state.

* `Change`: the kinds of change. A change holds what was read from the directive and nothing that the
  state knows better, such as fresh names and the current binding.
* `Change.commit`: the state after a change. It always succeeds and says nothing.
-/

namespace SceneConvert

inductive Change (α : Type) where
  | nothing
  /-- A new current transform. -/
  | place (t : Transform α)
  /-- A name for the current transform. -/
  | nameSystem (name : String)
  /-- A name for the place of the camera, and the camera if it is a valid one. -/
  | camera (c : Option (Camera α))
  | film (width height : Int)
  | setting (key : SettingKey) (value : Int)
  | beginWorld
  /-- Closes all scopes and the object that is being defined. -/
  | endWorld
  | openScope
  | closeScope
  | beginObject (name : String)
  | endObject
  /-- Draws recorded shapes in the current coordinate system. -/
  | drawObject (records : Array (Placed α))
  | bindMaterial (name : Option String)
  /-- Binds a material under a fresh name, and declares it if it is a valid one. -/
  | freshMaterial (m : Option Material)
  | namedMaterial (name : String) (m : Material)
  | texture (name : String) (fragments : List (Fragment α))
  | light (source : LightSource α)
  /-- Binds an emission under a fresh name, and declares it if it is a valid one. -/
  | emission (radiance : Option Color)
  | shape (plan : ShapePlan)
  | flip

namespace State

variable {α : Type} [Scalar α]

def place (s : State α) (t : Transform α) : State α :=
  { s with graphics := { s.graphics with transform := t } }

def nameSystem (s : State α) (name : String) (t : Transform α) : State α :=
  { s with coordinateSystems := s.coordinateSystems.set name t }

def push (s : State α) : State α := { s with saved := s.graphics :: s.saved }

/-- Goes back to the state of the innermost open scope, if there is one. -/
def pop (s : State α) : State α :=
  match s.saved with
  | [] => s
  | g :: rest => { s with graphics := g, saved := rest }

/-- Goes back to the state of the outermost open scope, if there is one. -/
def popAll (s : State α) : State α :=
  { s with graphics := s.saved.getLast?.getD s.graphics, saved := [] }

def declareMaterial (s : State α) (name : String) : State α :=
  { s with materials := if s.hasMaterial name then s.materials else name :: s.materials }

def declareTexture (s : State α) (name : String) : State α :=
  { s with textures := if s.hasTexture name then s.textures else name :: s.textures }

def bindMaterial (s : State α) (name : Option String) : State α :=
  { s with graphics := { s.graphics with material := name } }

def bindEmission (s : State α) (name : Option String) : State α :=
  { s with graphics := { s.graphics with emission := name } }

def addMaterial (s : State α) (name : String) (m : Material) : State α :=
  (s.emit (.material name m)).declareMaterial name

def addLight (s : State α) (source : LightSource α) : State α :=
  let (name, s) := s.take .light
  let map := source.map.toList.map fun file => Fragment.map (mapName name) file
  s.emitAll (map ++ [.light name source.light])

/-- Writes the mesh of a shape under a fresh name. -/
def addMesh (s : State α) (source : String → MeshSource) : String × State α :=
  let (name, s) := s.take .mesh
  (name, s.emit (.mesh name (source name)))

/-- Adds a shape, with its mesh before it. -/
def addPlan (s : State α) : ShapePlan → State α
  | .sphere radius => s.addShape (.sphere radius)
  | .inline m =>
    let (name, s) := s.addMesh fun _ => .inline m
    s.addShape (.mesh name)
  | .existing file =>
    let (name, s) := s.addMesh fun _ => .existing file
    s.addShape (.mesh name)
  | .separate m =>
    let (name, s) := s.addMesh fun name => .separate (meshFile name)
    let s := { s with meshes := s.meshes.push ⟨meshFile name, m⟩ }
    s.addShape (.mesh name)

/-- Draws recorded shapes, the current transform applied after their own. -/
def drawRecords (s : State α) (records : List (Placed α)) : State α :=
  let t := s.graphics.transform
  records.foldl (fun s p => s.drawEntity (p.at_ (t * p.binding.transform))) s

/-- Writes render settings, unless the output is to be a part of another scene. -/
def writeSettings (s : State α) (options : Options) (settings : List (SettingKey × Int)) : State α :=
  if options.skipWorld then s
  else settings.foldl (fun s (key, value) => s.write (.setting key value)) s

end State

namespace Change

variable {α : Type} [Scalar α]

def commit (options : Options) (s : State α) : Change α → State α
  | nothing => s
  | place t => s.place t
  | nameSystem name => s.nameSystem name s.graphics.transform
  | camera c =>
    let s := s.nameSystem "camera" s.graphics.transform.inverse
    { s with camera := c <|> s.camera }
  | film width height =>
    let s := { s with filmAspect := some (Binary32.ofInt width / Binary32.ofInt height) }
    s.writeSettings options [(.filmWidth, width), (.filmHeight, height)]
  | setting key value => s.writeSettings options [(key, value)]
  | beginWorld => (s.place Transform.identity).nameSystem "world" Transform.identity
  | endWorld => { s.popAll with openObject := none }
  | openScope => s.push
  | closeScope => s.pop
  | beginObject name =>
    { s.push with
      objects := s.objects.set name #[]
      openObject := some ⟨name, s.graphics.transform⟩ }
  | endObject => { s.pop with openObject := none }
  | drawObject records => s.drawRecords records.toList
  | bindMaterial name => s.bindMaterial name
  | freshMaterial m =>
    let (name, s) := s.take .material
    let s := s.bindMaterial (some name)
    match m with
    | none => s
    | some m => s.addMaterial name m
  | namedMaterial name m => s.addMaterial name m
  | texture name fragments => (s.emitAll fragments).declareTexture name
  | light source => s.addLight source
  | emission radiance =>
    let (name, s) := s.take .emission
    let s := s.bindEmission (some name)
    match radiance with
    | none => s
    | some radiance => s.emit (.emission name radiance)
  | shape plan => s.addPlan plan
  | flip => { s with graphics := { s.graphics with flipped := !s.graphics.flipped } }

end Change

end SceneConvert
