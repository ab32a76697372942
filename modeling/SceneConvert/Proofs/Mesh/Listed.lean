import SceneConvert.Proofs.Survey.Verdicts

/-!
# SceneConvert.Proofs.Mesh.Listed

Meshes whose lists fit together.

* `Groups`: a list in consecutive groups of one length; `triples` and `pairs` are such where nothing is
  left over.
* `TriangleMesh.IsRegular`: nothing is left over in any list of the mesh, and its indices are those of
  vertices. `Survey.gives_triangleMesh`: every mesh of a scene is so.
-/

namespace SceneConvert

/-! ## Groups -/

/-- The list in consecutive groups of `n`. -/
structure Groups {β : Type} (n : Nat) (groups : List (List β)) (l : List β) : Prop where
  flatten : groups.flatten = l
  length : ∀ g ∈ groups, g.length = n

section

variable {β : Type}

theorem Groups.nil (n : Nat) : Groups n ([] : List (List β)) [] := ⟨rfl, by simp⟩

theorem Groups.cons {n : Nat} {groups : List (List β)} {g l : List β} (hg : g.length = n)
    (h : Groups n groups l) : Groups n (g :: groups) (g ++ l) where
  flatten := by rw [List.flatten_cons, h.flatten]
  length := by
    intro g' hg'
    rcases List.mem_cons.1 hg' with rfl | hg'
    · exact hg
    · exact h.length g' hg'

theorem groups_triples {l : List β} (h : l.length % 3 = 0) : Groups 3 (triples l) l := by
  induction l using triples.induct with
  | case1 a b c rest ih =>
    have hrest : rest.length % 3 = 0 := by
      simp only [List.length_cons] at h
      omega
    exact .cons rfl (ih hrest)
  | case2 => exact .nil 3
  | case3 rest hlong hne =>
    rcases rest with _ | ⟨a, _ | ⟨b, _ | ⟨c, rest⟩⟩⟩
    · exact absurd rfl hne
    · simp at h
    · simp at h
    · exact absurd rfl (hlong a b c rest)

theorem groups_pairs {l : List β} (h : l.length % 2 = 0) : Groups 2 (pairs l) l := by
  induction l using pairs.induct with
  | case1 a b rest ih =>
    have hrest : rest.length % 2 = 0 := by
      simp only [List.length_cons] at h
      omega
    exact .cons rfl (ih hrest)
  | case2 => exact .nil 2
  | case3 rest hlong hne =>
    rcases rest with _ | ⟨a, _ | ⟨b, rest⟩⟩
    · exact absurd rfl hne
    · simp at h
    · exact absurd rfl (hlong a b rest)

end

/-! ## Meshes -/

/-- A mesh with vertices whose lists fit together. -/
structure TriangleMesh.IsRegular (m : TriangleMesh) : Prop where
  positions : m.positions.length = 3 * m.vertexCount
  vertices : 0 < m.vertexCount
  normals : ∀ n, m.normals = some n → n.length = 3 * m.vertexCount
  uvs : ∀ uv, m.uvs = some uv → uv.length = 2 * m.vertexCount
  indices : m.indices.length % 3 = 0
  vertexIndices : ∀ i ∈ m.indices, 0 ≤ i ∧ i < m.vertexCount

namespace Survey

theorem gives_vertexAttribute (name : String) (count : Nat) (dropped : Remark) :
    Gives (vertexAttribute name count dropped) fun o => ∀ values, o = some values → values.length = count := by
  refine gives_then fun found => ?_
  cases found with
  | none => exact gives_pure nofun
  | some values =>
    dsimp only
    split
    · refine gives_pure fun values' hvalues => ?_
      cases hvalues
      assumption
    · exact gives_then fun _ => gives_pure nofun

theorem gives_meshIndices (positions : List Float32) :
    Gives (meshIndices positions) fun indices =>
      indices.length % 3 = 0 ∧ ∀ i ∈ indices, 0 ≤ i ∧ i < (positions.length / 3 : Nat) := by
  refine gives_then fun found => ?_
  cases found with
  | none =>
    dsimp only
    split
    · refine gives_pure ⟨rfl, fun i hi => ?_⟩
      simp only [List.mem_cons, List.not_mem_nil, or_false] at hi
      omega
    · exact gives_refuse _
  | some indices =>
    dsimp only
    split
    · exact gives_refuse _
    · rename_i hcount
      split
      · exact gives_refuse _
      · rename_i hnone
        refine gives_pure ⟨Decidable.not_not.1 hcount, fun i hi => ?_⟩
        have hbounds := List.find?_eq_none.1 hnone i hi
        simp only [Bool.or_eq_true, decide_eq_true_eq, not_or] at hbounds
        omega

/-- Every mesh that is read fits together. -/
theorem gives_triangleMesh : Gives triangleMesh TriangleMesh.IsRegular := by
  refine gives_then fun found => gives_then fun positions => ?_
  split
  · exact gives_refuse _
  · rename_i hpositions
    simp only [Bool.or_eq_true, decide_eq_true_eq, List.isEmpty_iff, not_or,
      Decidable.not_not] at hpositions
    refine gives_bind (gives_meshIndices positions) fun indices hindices => ?_
    refine gives_bind (gives_vertexAttribute _ _ _) fun normals hnormals => gives_then fun uv => ?_
    refine gives_bind (gives_vertexAttribute _ _ _) fun uvs huvs => gives_pure ?_
    have hcount : positions.length = 3 * (positions.length / 3) := by omega
    have hlength : positions.length ≠ 0 := fun h => hpositions.2 (List.length_eq_zero_iff.1 h)
    have hvertices : 0 < positions.length / 3 := by omega
    refine ⟨hcount, hvertices, fun n hn => ?_, fun uv huv => ?_, hindices.1, hindices.2⟩
    · exact (hnormals n hn).trans hcount
    · exact (huvs uv huv).trans (Nat.mul_comm _ _)

end Survey

end SceneConvert
