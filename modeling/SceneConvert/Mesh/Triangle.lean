/-!
# SceneConvert.Mesh.Triangle

Triangle meshes as flat lists of numbers.

* `triples`, `pairs`: the consecutive groups of a list; the last one may be shorter.
* `TriangleMesh`: positions, optional normals and texture coordinates, and vertex indices.
-/

namespace SceneConvert

def triples {β : Type} : List β → List (List β)
  | a :: b :: c :: rest => [a, b, c] :: triples rest
  | [] => []
  | rest => [rest]

def pairs {β : Type} : List β → List (List β)
  | a :: b :: rest => [a, b] :: pairs rest
  | [] => []
  | rest => [rest]

/-- Three numbers for each position and normal, two for each pair of texture coordinates, and three
vertex indices for each face. -/
structure TriangleMesh where
  positions : List Float32
  normals : Option (List Float32)
  uvs : Option (List Float32)
  indices : List Int

namespace TriangleMesh

def vertexCount (m : TriangleMesh) : Nat := m.positions.length / 3

end TriangleMesh

end SceneConvert
