import Mathlib
import SceneConvert.Proofs.Mesh.HeaderLines
import SceneConvert.Proofs.Mesh.Rows

/-!
# SceneConvert.Proofs.Mesh.Decoded

What the bytes behind the header of a mesh file hold.

* `ByteReader.word`, `float`, `index`: readers of four bytes, low byte first. `ByteReader.mesh`: of the rows of
  a mesh.
* `ByteReader.Reads`: what a reader makes of the bytes of some value. `Reads.repeated`: of many.
* `TriangleMesh.HoldsRows`, `IsRegular.holdsRows`: the rows are read back from what is written of a regular
  mesh.
-/

namespace SceneConvert

abbrev ByteReader := StateT (List UInt8) Option

namespace ByteReader

variable {β γ : Type}

def byte : ByteReader UInt8
  | [] => none
  | b :: bs => some (b, bs)

/-- As many values as this, one behind the other. -/
def repeated (r : ByteReader β) : Nat → ByteReader (List β)
  | 0 => pure []
  | n + 1 => do
    let b ← r
    let bs ← repeated r n
    pure (b :: bs)

/-- The number in four bytes, low byte first. -/
def word : ByteReader UInt32 := do
  let bytes ← repeated byte 4
  pure (UInt32.ofNat (Nat.ofDigits 256 (bytes.map UInt8.toNat)))

def float : ByteReader Float32 := Float32.ofBits <$> word

def index : ByteReader Int := (fun w => w.toInt32.toInt) <$> word

/-- The numbers of some vertices, so many for each. -/
def vertices (size count : Nat) : ByteReader (List (List Float32)) := repeated (repeated float size) count

/-- The indices of some faces, each with a byte before it, which is passed over. -/
def faces (count : Nat) : ByteReader (List (List Int)) := repeated (byte *> repeated index 3) count

/-- The rows of a mesh: those of the vertices, and those of the faces behind them. -/
def mesh (size vertexCount faceCount : Nat) : ByteReader (List (List Float32) × List (List Int)) := do
  let vertexRows ← vertices size vertexCount
  (fun faceRows => (vertexRows, faceRows)) <$> faces faceCount

/-- The bytes are read as the value, whatever stands behind them. -/
def Reads (r : ByteReader β) (bytes : List UInt8) (b : β) : Prop :=
  ∀ rest, r (bytes ++ rest) = some (b, rest)

theorem reads_byte (b : UInt8) : byte.Reads [b] b := fun _ => rfl

theorem Reads.bind {r : ByteReader β} {k : β → ByteReader γ} {bs cs : List UInt8} {b : β} {c : γ}
    (hr : r.Reads bs b) (hk : (k b).Reads cs c) : (r >>= k).Reads (bs ++ cs) c := by
  intro rest
  change (r (bs ++ cs ++ rest) >>= fun (b, rest) => k b rest) = _
  rw [List.append_assoc, hr]
  exact hk rest

theorem Reads.map {r : ByteReader β} {bs : List UInt8} {b : β} (h : r.Reads bs b) (f : β → γ) :
    (f <$> r).Reads bs (f b) := by
  intro rest
  change (r (bs ++ rest) >>= fun (b, rest) => some (f b, rest)) = _
  rw [h]
  rfl

theorem Reads.repeated {r : ByteReader β} {bytes : γ → List UInt8} {f : γ → β} {cs : List γ}
    (h : ∀ c ∈ cs, r.Reads (bytes c) (f c)) :
    (repeated r cs.length).Reads (cs.flatMap bytes) (cs.map f) := by
  induction cs with
  | nil => exact fun _ => rfl
  | cons c cs ih =>
    obtain ⟨hc, hcs⟩ := List.forall_mem_cons.1 h
    exact hc.bind ((ih hcs).map (f c :: ·))

theorem reads_word (w : UInt32) : word.Reads (wordBytes w) w := by
  have hbytes : (repeated byte 4).Reads (wordBytes w) (wordBytes w) := fun _ => rfl
  have hvalue : UInt32.ofNat (Nat.ofDigits 256 ((wordBytes w).map UInt8.toNat)) = w := by
    have hsize := w.toNat_lt
    rw [← UInt32.toNat_inj, UInt32.toNat_ofNat']
    simp only [wordBytes, List.map_cons, List.map_nil, Nat.ofDigits_cons, Nat.ofDigits_nil,
      UInt32.toNat_toUInt8, UInt32.toNat_shiftRight, Nat.shiftRight_eq_div_pow]
    simp
    omega
  have hword := hbytes.map fun bytes => UInt32.ofNat (Nat.ofDigits 256 (bytes.map UInt8.toNat))
  rwa [hvalue] at hword

theorem reads_float (v : Float32) : float.Reads (floatBytes v) v := by
  have hfloat := (reads_word v.toBits).map Float32.ofBits
  rwa [Float32.ofBits_toBits] at hfloat

theorem reads_index (i : Int32) : index.Reads (indexBytes i) i.toInt := by
  have hindex := (reads_word i.toUInt32).map fun w => w.toInt32.toInt
  rwa [Int32.toInt32_toUInt32] at hindex

end ByteReader

namespace TriangleMesh

open ByteReader

theorem reads_vertices {rows : List (List Float32)} {size : Nat} (h : ∀ row ∈ rows, row.length = size) :
    (vertices size rows.length).Reads (rows.flatMap (·.flatMap floatBytes)) rows := by
  have hrow : ∀ row ∈ rows, (repeated float size).Reads (row.flatMap floatBytes) (id row) := fun row hrow => by
    have hfloats := Reads.repeated (f := id) fun v (_ : v ∈ row) => reads_float v
    rwa [h row hrow, List.map_id] at hfloats
  have hrows := Reads.repeated hrow
  rwa [List.map_id] at hrows

theorem reads_faces {rows : List (List Int32)} (h : ∀ row ∈ rows, row.length = 3) (count : Nat) :
    (faces rows.length).Reads (rows.flatMap (faceBytes count)) (rows.map (·.map Int32.toInt)) := by
  refine Reads.repeated fun row hrow => ?_
  have hindices := Reads.repeated fun i (_ : i ∈ row) => reads_index i
  rw [h row hrow] at hindices
  exact (reads_byte (UInt8.ofNat count)).bind hindices

/-- A header, and bytes that are read as the rows of a mesh, with nothing behind them. -/
def HoldsRows (m : TriangleMesh) (content : ByteArray) : Prop :=
  ∃ body, content.data.toList = textBytes (String.join (m.plyHeaderLines.map (· ++ "\n"))) ++ body ∧
    mesh m.vertexProperties.length m.vertexCount (m.indices.length / 3) body =
      some (((List.range m.vertexCount).map m.vertexTuple, m.faceRows.map (·.map Int32.toInt)), [])

theorem IsRegular.holdsRows {m : TriangleMesh} (h : m.IsRegular) :
    ∃ content, m.plyBytes? = some content ∧ m.HoldsRows content := by
  let rows := (List.range m.vertexCount).map m.vertexTuple
  have hrow : ∀ row ∈ rows, row.length = m.vertexProperties.length := by
    intro row hrow
    obtain ⟨i, hi, rfl⟩ := List.mem_map.1 hrow
    exact h.length_vertexTuple (List.mem_range.1 hi)
  have hfaceRow : ∀ row ∈ m.faceRows, row.length = 3 := by
    intro row hrow
    obtain ⟨g, hg, rfl⟩ := List.mem_map.1 hrow
    rw [List.length_map]
    exact (groups_triples h.indices).length g hg
  have hvertices := reads_vertices hrow
  rw [show rows.length = m.vertexCount by simp [rows]] at hvertices
  have hread : (mesh m.vertexProperties.length m.vertexCount m.faceRows.length).Reads _ _ :=
    hvertices.bind ((reads_faces hfaceRow m.faceRows.length).map fun faceRows => (rows, faceRows))
  obtain ⟨content, hcontent⟩ : ∃ content, m.plyBytes? = some content := by
    rw [plyBytes?, h.vertexRows?_eq]
    exact ⟨_, rfl⟩
  obtain ⟨_, hrows, rfl⟩ := Option.map_eq_some_iff.1 hcontent
  cases hrows.symm.trans h.vertexRows?_eq
  refine ⟨_, hcontent, _, toList_toUTF8_append _ _, ?_⟩
  rw [show m.indices.length / 3 = m.faceRows.length by simp [h.faceRows_eq]]
  have hwhole := hread []
  rwa [List.append_nil] at hwhole

end TriangleMesh

end SceneConvert
