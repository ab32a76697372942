import SceneConvert.Mesh.Triangle

/-!
# SceneConvert.Mesh.PlyBody

The bytes of the PLY file that a mesh is written to: a header in ASCII, then the vertices and the
faces in binary, low byte first.

* `TriangleMesh.vertexRows?`: the numbers of each vertex, if there are enough of each kind.
* `TriangleMesh.faceRows`: the indices of each face.
* `TriangleMesh.plyBytes?`: the whole file.
-/

namespace SceneConvert

/-- The four bytes of a word, low byte first. -/
def wordBytes (w : UInt32) : List UInt8 :=
  [w.toUInt8, (w >>> 8).toUInt8, (w >>> 16).toUInt8, (w >>> 24).toUInt8]

def floatBytes (v : Float32) : List UInt8 := wordBytes v.toBits

def indexBytes (i : Int32) : List UInt8 := wordBytes i.toUInt32

namespace TriangleMesh

/-- The groups of an attribute, one for each of `count` vertices: empty groups when the mesh does not
have the attribute, nothing when the list is too short. -/
def attributeRows? (count size : Nat) (group : List Float32 → List (List Float32)) :
    Option (List Float32) → Option (List (List Float32))
  | none => some (List.replicate count [])
  | some values => if size * count ≤ values.length then some ((group values).take count) else none

def vertexRows? (m : TriangleMesh) : Option (List (List Float32)) :=
  let count := m.vertexCount
  match attributeRows? count 3 triples m.normals, attributeRows? count 2 pairs m.uvs with
  | some normals, some uvs =>
    some (List.zipWith (· ++ ·) (List.zipWith (· ++ ·) ((triples m.positions).take count) normals) uvs)
  | _, _ => none

/-- The indices of each face, cut to 32 bits. -/
def faceRows (m : TriangleMesh) : List (List Int32) := (triples m.indices).map (·.map Int32.ofInt)

def vertexProperties (m : TriangleMesh) : List String :=
  ["x", "y", "z"] ++ (if m.normals.isSome then ["nx", "ny", "nz"] else []) ++
    (if m.uvs.isSome then ["u", "v"] else [])

def plyHeaderLines (m : TriangleMesh) : List String :=
  ["ply", "format binary_little_endian 1.0", "comment Exported by pbrt2prc",
   "element vertex " ++ toString m.vertexCount] ++
  m.vertexProperties.map (fun name => "property float " ++ name) ++
  ["element face " ++ toString m.faceRows.length, "property list uchar int vertex_indices",
   "end_header"]

/-- A face as the file holds it. The byte before the indices is the number of faces in the file,
reduced to one byte, and says nothing about this face. -/
def faceBytes (faceCount : Nat) (face : List Int32) : List UInt8 :=
  UInt8.ofNat faceCount :: face.flatMap indexBytes

/-- The content of the mesh file, if every vertex has all its attributes. -/
def plyBytes? (m : TriangleMesh) : Option ByteArray :=
  m.vertexRows?.map fun rows =>
    let header := String.join (m.plyHeaderLines.map (· ++ "\n"))
    let faces := m.faceRows
    let body := rows.flatMap (·.flatMap floatBytes) ++ faces.flatMap (faceBytes faces.length)
    header.toUTF8 ++ ⟨body.toArray⟩

end TriangleMesh

end SceneConvert
