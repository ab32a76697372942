import SceneConvert.Mesh.PlyBody
import SceneConvert.Proofs.Mesh.HeaderLines
import SceneConvert.Proofs.Mesh.Rows

/-!
# SceneConvert.Proofs.Mesh.Reread

What is read from a mesh file that was written.

* `TriangleMesh.plyHeader`: the header that a mesh file should have.
* `ofLines_plyHeaderLines`: it is what the lines of the file make, whatever comes behind them.
* `TriangleMesh.rereadInfo`, `IsRegular.readPlyInfo_write`: what a file of the mesh says about it.
-/

namespace SceneConvert

open PlyLine

namespace PlyHeader

variable {number : Nat} {format : Option PlyFormat} {e : PlyElement} {elements : List PlyElement}
variable {line : String} {rest : List (Except FileError String)}

theorem bodyOfLines_property {p : PlyProperty} (h : ofChars line.toList = .ok (.property p)) :
    bodyOfLines number format (e :: elements) (.ok line :: rest) =
      bodyOfLines (number + 1) format (e.withProperty p :: elements) rest := by
  rw [bodyOfLines.eq_def]
  simp only [h]

theorem bodyOfLines_element {n : Nat} {name : String}
    (h : ofChars line.toList =
      if counterMax < n then .error .overflow else .ok (.element ⟨name, n, []⟩)) :
    bodyOfLines number format elements (.ok line :: rest) =
      if counterMax < n then .error .overflow
      else bodyOfLines (number + 1) format (⟨name, n, []⟩ :: elements.filter (·.name != name)) rest := by
  rw [bodyOfLines.eq_def]
  by_cases hlarge : counterMax < n <;> simp only [h, hlarge, ↓reduceIte]

theorem bodyOfLines_properties {names : List String}
    (h : ∀ name ∈ names,
      ofChars ("property float " ++ name ++ "\n").toList = .ok (.property ⟨name, .scalar .float⟩)) :
    bodyOfLines number format (e :: elements)
        (names.map (fun name => .ok ("property float " ++ name ++ "\n")) ++ rest) =
      bodyOfLines (number + names.length) format
        (names.foldl (fun e name => e.withProperty ⟨name, .scalar .float⟩) e :: elements) rest := by
  induction names generalizing number e with
  | nil => rfl
  | cons name names ih =>
    rw [List.map_cons, List.cons_append, bodyOfLines_property (h name List.mem_cons_self),
      ih fun name' hname' => h name' (List.mem_cons_of_mem name hname'), List.length_cons,
      Nat.add_assoc, Nat.add_comm 1]
    rfl

end PlyHeader

namespace TriangleMesh

variable (m : TriangleMesh)

/-- The header of the file of a mesh. -/
def plyHeader : PlyHeader where
  format := ⟨.littleEndian, 1, 0⟩
  elements :=
    [⟨"vertex", m.vertexCount, m.vertexProperties.map fun name => ⟨name, .scalar .float⟩⟩,
      ⟨"face", m.faceRows.length, [⟨"vertex_indices", .list .uchar .int⟩]⟩]

/-- The counters of a header hold as many vertices and faces as the mesh has. -/
def Countable : Prop := m.positions.length / 3 ≤ counterMax ∧ m.indices.length / 3 ≤ counterMax

/-- What the file of a mesh says about it. A file without faces is invalid, and so are counts that no
counter holds. -/
def rereadInfo : Except PlyStop PlyInfo :=
  if counterMax < m.vertexCount ∨ counterMax < m.indices.length / 3 then .error .overflow
  else if m.indices = [] then .error (.failure .empty)
  else .ok ⟨m.positions.length / 3, m.indices.length / 3, m.normals.isSome, m.uvs.isSome⟩

theorem rereadInfo_eq_ok :
    m.rereadInfo = .ok ⟨m.positions.length / 3, m.indices.length / 3, m.normals.isSome, m.uvs.isSome⟩ ↔
      m.indices ≠ [] ∧ m.Countable := by
  unfold rereadInfo Countable
  rw [← Nat.not_lt, ← Nat.not_lt, ← not_or, ← vertexCount]
  by_cases hcount : counterMax < m.vertexCount ∨ counterMax < m.indices.length / 3
  · simp [hcount]
  · rw [if_neg hcount]
    by_cases hindices : m.indices = [] <;> simp [hcount, hindices]

theorem vertexProperties_subset :
    m.vertexProperties ⊆ ["x", "y", "z", "nx", "ny", "nz", "u", "v"] := by
  unfold vertexProperties
  generalize m.normals.isSome = normals, m.uvs.isSome = uvs
  revert normals uvs
  decide

theorem ofChars_vertexProperty {name : String} (h : name ∈ m.vertexProperties) :
    ofChars ("property float " ++ name ++ "\n").toList = .ok (.property ⟨name, .scalar .float⟩) := by
  have hname := m.vertexProperties_subset h
  simp only [List.mem_cons, List.not_mem_nil, or_false] at hname
  rcases hname with rfl | rfl | rfl | rfl | rfl | rfl | rfl | rfl <;> rfl

theorem ofChars_vertexLine :
    ofChars ("element vertex " ++ toString m.vertexCount ++ "\n").toList =
      if counterMax < m.vertexCount then .error .overflow
      else .ok (.element ⟨"vertex", m.vertexCount, []⟩) := by
  have h := @ofChars_element 'v' ['e', 'r', 't', 'e', 'x'] rfl rfl rfl m.vertexCount
  simpa using h

theorem ofChars_faceLine :
    ofChars ("element face " ++ toString m.faceRows.length ++ "\n").toList =
      if counterMax < m.faceRows.length then .error .overflow
      else .ok (.element ⟨"face", m.faceRows.length, []⟩) := by
  have h := @ofChars_element 'f' ['a', 'c', 'e'] rfl rfl rfl m.faceRows.length
  simpa using h

theorem foldl_vertexProperties (n : Nat) :
    m.vertexProperties.foldl (fun e name => e.withProperty ⟨name, .scalar .float⟩)
        (⟨"vertex", n, []⟩ : PlyElement) =
      ⟨"vertex", n, m.vertexProperties.map fun name => ⟨name, .scalar .float⟩⟩ := by
  unfold vertexProperties
  generalize m.normals.isSome = normals, m.uvs.isSome = uvs
  cases normals <;> cases uvs <;> rfl

theorem ofLines_plyHeaderLines (rest : List (Except FileError String)) :
    PlyHeader.ofLines (m.plyHeaderLines.map (fun l => .ok (l ++ "\n")) ++ rest) =
      if counterMax < m.vertexCount ∨ counterMax < m.faceRows.length then .error .overflow
      else .ok m.plyHeader := by
  have hlines : m.plyHeaderLines.map (fun l => (.ok (l ++ "\n") : Except FileError String)) ++ rest =
      .ok "ply\n" :: .ok "format binary_little_endian 1.0\n" :: .ok "comment Exported by pbrt2prc\n" ::
      .ok ("element vertex " ++ toString m.vertexCount ++ "\n") ::
        (m.vertexProperties.map (fun name => .ok ("property float " ++ name ++ "\n")) ++
        .ok ("element face " ++ toString m.faceRows.length ++ "\n") ::
        .ok "property list uchar int vertex_indices\n" :: .ok "end_header\n" :: rest) := by
    simp [plyHeaderLines, Function.comp_def]
  rw [hlines]
  change PlyHeader.bodyOfLines 4 (some ⟨.littleEndian, 1, 0⟩) [] _ = _
  rw [PlyHeader.bodyOfLines_element m.ofChars_vertexLine]
  by_cases hvertices : counterMax < m.vertexCount
  · simp only [hvertices, ↓reduceIte, true_or]
  · simp only [hvertices, ↓reduceIte, false_or, List.filter_nil]
    rw [PlyHeader.bodyOfLines_properties fun name => m.ofChars_vertexProperty,
      m.foldl_vertexProperties, PlyHeader.bodyOfLines_element m.ofChars_faceLine]
    by_cases hfaces : counterMax < m.faceRows.length
    · simp only [hfaces, ↓reduceIte]
    · simp only [hfaces, ↓reduceIte]
      rfl

theorem ofHeader_plyHeader :
    PlyInfo.ofHeader m.plyHeader =
      if m.vertexCount = 0 ∨ m.faceRows.length = 0 then .error (.failure .empty)
      else .ok ⟨m.vertexCount, m.faceRows.length, m.normals.isSome, m.uvs.isSome⟩ := by
  have hfound : m.plyHeader.elements.foldlM PlyInfo.withElement ⟨0, 0, false, false⟩ =
      .ok ⟨m.vertexCount, m.faceRows.length, m.normals.isSome, m.uvs.isSome⟩ := by
    unfold plyHeader vertexProperties
    generalize m.normals.isSome = normals, m.uvs.isSome = uvs
    cases normals <;> cases uvs <;> rfl
  unfold PlyInfo.ofHeader
  rw [hfound]
  simp [bind, Except.bind, pure, Except.pure]

theorem avoids_plyHeaderLines : ∀ l ∈ m.plyHeaderLines, Avoids '\n' l := by
  have hnames : ∀ name ∈ ["x", "y", "z", "nx", "ny", "nz", "u", "v"], Avoids '\n' name := by decide
  intro l hl
  simp only [plyHeaderLines, List.mem_append, List.mem_cons, List.mem_map, List.not_mem_nil,
    or_false] at hl
  rcases hl with ((rfl | rfl | rfl | rfl) | ⟨name, hname, rfl⟩) | rfl | rfl | rfl
  case inl.inl.inr.inr.inr | inr.inl =>
    exact avoids_append.2 ⟨by decide, avoids_toString_nat rfl _⟩
  case inl.inr => exact avoids_append.2 ⟨by decide, hnames name (m.vertexProperties_subset hname)⟩
  all_goals decide

/-- What is read from a file with the content of a mesh. -/
theorem readPlyInfo_of_find {t : FileTree} {p : Path} {content : ByteArray}
    (hcontent : m.plyBytes? = some content) (h : t.find p = .ok (.file content)) :
    readPlyInfo t p =
      if counterMax < m.vertexCount ∨ counterMax < m.faceRows.length then .error .overflow
      else PlyInfo.ofHeader m.plyHeader := by
  obtain ⟨rows, -, rfl⟩ := Option.map_eq_some_iff.1 hcontent
  unfold readPlyInfo
  rw [h]
  dsimp only
  rw [toList_toUTF8_append, textLines_append m.avoids_plyHeaderLines, m.ofLines_plyHeaderLines]
  split <;> rfl

/-- A mesh file is read back with the counts and the attributes of the mesh, wherever it was written. -/
theorem IsRegular.readPlyInfo_write {m : TriangleMesh} (hm : m.IsRegular) {t u : FileTree} {p : Path}
    {content : ByteArray} (hcontent : m.plyBytes? = some content) (h : t.write p content = .ok u) :
    readPlyInfo u p = m.rereadInfo := by
  have hfaces : m.faceRows.length = m.indices.length / 3 := by simp [hm.faceRows_eq]
  have hempty : m.indices.length / 3 = 0 ↔ m.indices = [] := by
    have hindices := hm.indices
    rw [← List.length_eq_zero_iff]
    omega
  have hvertices : m.vertexCount ≠ 0 := Nat.ne_of_gt hm.vertices
  rw [m.readPlyInfo_of_find hcontent (FileTree.find_write h), ofHeader_plyHeader, rereadInfo, hfaces]
  simp only [hvertices, hempty, false_or]
  rfl

end TriangleMesh

end SceneConvert
