import SceneConvert.Conversion.Options
import SceneConvert.Scene.Survey

/-!
# SceneConvert.Scene.Shape

Reading shapes.

* `Survey.triangleMesh`: the mesh that lists of numbers describe. Positions and indices have to fit
  together; normals and texture coordinates that do not fit are left out.
* `Survey.shape`: the shape of a kind, or nothing when an option leaves its kind out.
-/

namespace SceneConvert

/-- What a shape directive asks for. -/
inductive ShapePlan where
  | sphere (radius : Float32)
  | inline (m : TriangleMesh)
  /-- A mesh that gets a file of its own. -/
  | separate (m : TriangleMesh)
  /-- A mesh in a file that is there already. -/
  | existing (file : Path)

def meshFile (name : String) : Path := ⟨"meshes/" ++ name ++ ".ply"⟩

namespace Survey

variable {α : Type}

def sphere : Survey ShapePlan := do
  let radius ← number "radius" (Binary32.ofInt 1)
  let zMin ← number "zmin" (-radius)
  let zMax ← number "zmax" radius
  let angle ← number "phimax" (Binary32.ofInt 360)
  if radius ≤ Binary32.ofInt 0 then refuse (.sphereRadius radius)
  else
    if -radius < zMin || zMax < radius || angle < Binary32.ofInt 360 then report .spherePartial
    return .sphere radius

/-- The numbers of an attribute, if there are as many as needed. -/
def vertexAttribute (name : String) (count : Nat) (dropped : Remark) : Survey (Option (List Float32)) := do
  match ← numbers? name with
  | none => pure none
  | some values =>
    if values.length = count then pure (some values)
    else
      remark dropped
      pure none

/-- The vertex indices of a mesh; a mesh of three vertices needs none. -/
def meshIndices (positions : List Float32) : Survey (List Int) := do
  let count := positions.length / 3
  match ← integers? "indices" with
  | none => if count = 3 then pure [0, 1, 2] else refuse .indicesMissing
  | some indices =>
    if indices.length % 3 ≠ 0 then refuse (.indexCount indices.length)
    else match indices.find? fun i => i < 0 || (count : Int) ≤ i with
      | some i => refuse (.indexOutOfBounds i positions.length)
      | none => pure indices

def triangleMesh : Survey TriangleMesh := do
  let positions ← require .positionsMissing (← numbers? "P")
  if positions.length % 3 ≠ 0 || positions.isEmpty then refuse (.positionCount positions.length)
  else
    let indices ← meshIndices positions
    let normals ← vertexAttribute "N" positions.length .normalsDropped
    let uvName := if ← has "uv" then "uv" else "st"
    let uvs ← vertexAttribute uvName (positions.length / 3 * 2) (.uvsDropped uvName)
    return ⟨positions, normals, uvs, indices⟩

/-- A mesh of the scene text, in a file of its own when it has more vertices than the threshold. -/
def trianglePlan (ctx : Context) (s : State α) : Survey ShapePlan := do
  let mesh ← triangleMesh
  if mesh.vertexCount ≤ ctx.options.meshThreshold then return .inline mesh
  else
    remark (.meshSeparate mesh.vertexCount (meshFile (s.counters.next .mesh)))
    return .separate mesh

/-- A mesh file. Its header is checked, the file stays where it is. -/
def plyPlan (ctx : Context) (s : State α) (source : Path) : Survey ShapePlan := do
  let filename ← word "filename" ""
  if filename.isEmpty then refuse .plyUnnamed
  else
    let file := ctx.files.fileFor source filename ctx.includeRoot
    if !file.hasExtension "ply" then remark (.plyExtension file)
    match readPlyInfo (ctx.filesFor (← journal s) file) file with
    | .ok info =>
      remark (.meshReferenced info.vertices info.faces)
      return .existing file
    | .error (.failure cause) => refuse (.plyUnreadable file cause)
    | .error .overflow => throw .overflow

def skipsShape (options : Options) (kind : String) : Bool :=
  match kind with
  | "sphere" => options.skipPrimitives
  | "trianglemesh" | "plymesh" => options.skipMeshes
  | "curve" => options.skipCurves
  | _ => false

/-- The shape of a kind; `source` is the file that declares it. -/
def shape (ctx : Context) (s : State α) (source : Path) (kind : String) : Survey ShapePlan :=
  match kind with
  | "sphere" => sphere
  | "trianglemesh" => trianglePlan ctx s
  | "plymesh" => plyPlan ctx s source
  | _ => refuse (.shapeUnknown kind)

end Survey

end SceneConvert
