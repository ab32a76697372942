import Mathlib
import SceneConvert.Mesh.PlyBody
import SceneConvert.Proofs.Mesh.Listed

/-!
# SceneConvert.Proofs.Mesh.Rows

What a mesh file has for each vertex and each face.

* `tuple`: the numbers of one vertex or face in a flat list.
* `Groups.eq_tuples`: consecutive groups are the tuples, in order.
* `IsRegular.vertexRows?_eq`, `IsRegular.faceRows_eq`: the rows of a regular mesh are its tuples.
* `IsRegular.map_toInt_faceRows`: the indices of up to 2³¹ vertices are not cut.
-/

namespace SceneConvert

/-- The numbers with index `i` when each index has `size` of them. -/
def tuple {β : Type} (size i : Nat) (l : List β) : List β := (l.drop (size * i)).take size

section

variable {β : Type} {size : Nat}

theorem tuple_zero {g l : List β} (hg : g.length = size) : tuple size 0 (g ++ l) = g := by
  rw [tuple, Nat.mul_zero, List.drop_zero, List.take_left' hg]

theorem tuple_succ {g l : List β} (hg : g.length = size) (i : Nat) :
    tuple size (i + 1) (g ++ l) = tuple size i l := by
  rw [tuple, Nat.mul_succ, Nat.add_comm, ← List.drop_drop, List.drop_left' hg, tuple]

theorem Groups.eq_tuples {groups : List (List β)} {l : List β} (h : Groups size groups l) :
    groups = (List.range groups.length).map fun i => tuple size i l := by
  obtain ⟨rfl, hlength⟩ := h
  induction groups with
  | nil => rfl
  | cons g groups ih =>
    have hg := hlength g List.mem_cons_self
    have hrest := ih fun g' hg' => hlength g' (List.mem_cons_of_mem g hg')
    rw [List.length_cons, List.range_succ_eq_map, List.map_cons, List.flatten_cons, tuple_zero hg,
      List.map_map]
    congr 1
    refine hrest.trans (List.map_congr_left fun i _ => ?_)
    exact (tuple_succ hg i).symm

theorem Groups.length_eq {groups : List (List β)} {l : List β} (h : Groups size groups l) :
    l.length = size * groups.length := by
  obtain ⟨rfl, hlength⟩ := h
  rw [List.length_flatten, List.map_congr_left hlength, List.map_const',
    List.sum_replicate_nat, Nat.mul_comm]

/-- The tuples of a list in which nothing is left over. -/
theorem Groups.eq_tuples_of_length {groups : List (List β)} {l : List β} {count : Nat}
    (hsize : 0 < size) (h : Groups size groups l) (hl : l.length = size * count) :
    groups = (List.range count).map fun i => tuple size i l := by
  have hcount : groups.length = count := Nat.eq_of_mul_eq_mul_left hsize (h.length_eq.symm.trans hl)
  rw [← hcount]
  exact h.eq_tuples

end

namespace TriangleMesh

/-- The numbers of the vertex `i`: position, normal and texture coordinates, as far as there are any. -/
def vertexTuple (m : TriangleMesh) (i : Nat) : List Float32 :=
  tuple 3 i m.positions ++ m.normals.elim [] (tuple 3 i) ++ m.uvs.elim [] (tuple 2 i)

theorem attributeRows?_eq {count size : Nat} (group : List Float32 → List (List Float32))
    {o : Option (List Float32)} (hsize : 0 < size)
    (hgroup : ∀ values, o = some values → Groups size (group values) values)
    (hlength : ∀ values, o = some values → values.length = size * count) :
    attributeRows? count size group o =
      some ((List.range count).map fun i => o.elim [] (tuple size i)) := by
  cases o with
  | none => simp [attributeRows?, List.map_const']
  | some values =>
    have hvalues := hlength values rfl
    have hrows := (hgroup values rfl).eq_tuples_of_length hsize hvalues
    rw [attributeRows?, if_pos (Nat.le_of_eq hvalues.symm), hrows, List.take_of_length_le (by simp)]
    rfl

namespace IsRegular

variable {m : TriangleMesh}

/-- No vertex lacks a number, and each has its own. -/
theorem vertexRows?_eq (h : m.IsRegular) :
    m.vertexRows? = some ((List.range m.vertexCount).map m.vertexTuple) := by
  have hpositions : triples m.positions =
      (List.range m.vertexCount).map fun i => tuple 3 i m.positions :=
    (groups_triples (by have := h.positions; omega)).eq_tuples_of_length (by decide) h.positions
  have hnormals := attributeRows?_eq triples (by decide)
    (fun n hn => groups_triples (by have := h.normals n hn; omega)) h.normals
  have huvs := attributeRows?_eq pairs (by decide)
    (fun uv huv => groups_pairs (by have := h.uvs uv huv; omega)) h.uvs
  rw [vertexRows?, hnormals, huvs]
  dsimp only
  rw [hpositions, List.take_of_length_le (by simp)]
  simp [List.zipWith_map, List.zipWith_self, vertexTuple]

theorem faceRows_eq (h : m.IsRegular) : m.faceRows =
    (List.range (m.indices.length / 3)).map fun i => (tuple 3 i m.indices).map Int32.ofInt := by
  have hrows : triples m.indices =
      (List.range (m.indices.length / 3)).map fun i => tuple 3 i m.indices :=
    (groups_triples h.indices).eq_tuples_of_length (by decide) (by have := h.indices; omega)
  rw [faceRows, hrows, List.map_map]
  rfl

theorem map_toInt_faceRows (h : m.IsRegular) (hcount : m.vertexCount ≤ 2 ^ 31) :
    m.faceRows.map (·.map Int32.toInt) =
      (List.range (m.indices.length / 3)).map fun i => tuple 3 i m.indices := by
  rw [h.faceRows_eq, List.map_map]
  refine List.map_congr_left fun i _ => ?_
  have hindex : ∀ j ∈ tuple 3 i m.indices, (Int32.ofInt j).toInt = j := fun j hj => by
    have hbounds := h.vertexIndices j (List.mem_of_mem_drop (List.mem_of_mem_take hj))
    exact Int32.toInt_ofInt_of_le (by omega) (by omega)
  rw [Function.comp_apply, List.map_map]
  exact (List.map_congr_left hindex).trans (List.map_id _)

theorem length_vertexTuple (h : m.IsRegular) {i : Nat} (hi : i < m.vertexCount) :
    (m.vertexTuple i).length = m.vertexProperties.length := by
  have htuple {size : Nat} {values : List Float32} (hvalues : values.length = size * m.vertexCount) :
      (tuple size i values).length = size := by
    have hle := Nat.mul_le_mul_left size (Nat.succ_le_of_lt hi)
    rw [tuple, List.length_take, List.length_drop, hvalues]
    rw [Nat.mul_succ] at hle
    omega
  have hposition := htuple h.positions
  cases hn : m.normals with
  | none =>
    cases huv : m.uvs with
    | none => simp [vertexTuple, vertexProperties, hn, huv, hposition]
    | some uv => simp [vertexTuple, vertexProperties, hn, huv, hposition, htuple (h.uvs uv huv)]
  | some n =>
    have hnormal := htuple (h.normals n hn)
    cases huv : m.uvs with
    | none => simp [vertexTuple, vertexProperties, hn, huv, hposition, hnormal]
    | some uv => simp [vertexTuple, vertexProperties, hn, huv, hposition, hnormal, htuple (h.uvs uv huv)]

end IsRegular

end TriangleMesh

end SceneConvert
