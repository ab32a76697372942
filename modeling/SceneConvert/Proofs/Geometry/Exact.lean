import Mathlib
import SceneConvert.Decimal.Binary32
import SceneConvert.Geometry.Transform

/-!
# SceneConvert.Proofs.Geometry.Exact

Matrices and transforms in exact arithmetic.

* `ExactScalar`: numbers of a field, with roots, sines and cosines that are what they should be. The
  real numbers are such.
* `Matrix4.toMatrix`: a matrix as one of the library, with its product.
* `toMatrix_mul_inverse?`, `toMatrix_rotation_mul_transpose`: the formulas for inverses.
* `Transform.Consistent`: the two matrices of a transform are inverse to each other. All transforms
  that a scene can name are so, and so are products and inverses of such.
-/

namespace SceneConvert

/-- Exact arithmetic. Of a root only that of a sum of three squares matters, which is the square of a
length: unless it is zero, it is a root. -/
class ExactScalar (K : Type) extends Field K, Scalar K where
  beq_iff : ∀ a b : K, (a == b) = true ↔ a = b
  sqrt_mul_self : ∀ x y z : K, sqrt (x * x + y * y + z * z) ≠ 0 →
    sqrt (x * x + y * y + z * z) * sqrt (x * x + y * y + z * z) = x * x + y * y + z * z
  sin_sq_add_cos_sq : ∀ a : K, sin a * sin a + cos a * cos a = 1

def Binary32.value (v : Float32) : ℚ :=
  let (m, q) := significand (magnitude v)
  (if isNegative v then -1 else 1) * m * (2 : ℚ) ^ q

/-- The real numbers, with the tolerances of the floats. -/
noncomputable instance : ExactScalar ℝ where
  beq a b := decide (a = b)
  ofFloat v := Binary32.value v
  sqrt := Real.sqrt
  sin := Real.sin
  cos := Real.cos
  close a b := decide (|a - b| ≤ Binary32.value Binary32.absoluteTolerance ∨
    |a - b| ≤ max |a| |b| * Binary32.value Binary32.relativeTolerance)
  beq_iff _ _ := decide_eq_true_iff
  sqrt_mul_self x y z _ := Real.mul_self_sqrt
    (add_nonneg (add_nonneg (mul_self_nonneg x) (mul_self_nonneg y)) (mul_self_nonneg z))
  sin_sq_add_cos_sq a := by rw [← sq, ← sq, Real.sin_sq_add_cos_sq]

variable {K : Type} [ExactScalar K]

theorem ExactScalar.ne_of_beq {a b : K} (h : ¬(a == b) = true) : a ≠ b := fun e => h ((beq_iff a b).2 e)

/-! ## Matrices -/

namespace Matrix4

def toMatrix {α : Type} (m : Matrix4 α) : Matrix (Fin 4) (Fin 4) α :=
  !![m.r0.x, m.r0.y, m.r0.z, m.r0.w; m.r1.x, m.r1.y, m.r1.z, m.r1.w;
     m.r2.x, m.r2.y, m.r2.z, m.r2.w; m.r3.x, m.r3.y, m.r3.z, m.r3.w]

theorem toMatrix_injective {α : Type} : Function.Injective (toMatrix : Matrix4 α → _) := by
  intro a b h
  have entry (i j : Fin 4) : a.toMatrix i j = b.toMatrix i j := congrFun (congrFun h i) j
  obtain ⟨⟨_, _, _, _⟩, ⟨_, _, _, _⟩, ⟨_, _, _, _⟩, ⟨_, _, _, _⟩⟩ := a
  obtain ⟨⟨_, _, _, _⟩, ⟨_, _, _, _⟩, ⟨_, _, _, _⟩, ⟨_, _, _, _⟩⟩ := b
  simp only [toMatrix, Matrix.of_apply, Matrix.cons_val', Matrix.cons_val_fin_one,
    Fin.forall_fin_succ, Fin.forall_fin_zero] at entry
  simpa using entry

theorem toMatrix_identity : (identity : Matrix4 K).toMatrix = 1 := by
  ext i j
  fin_cases i <;> fin_cases j <;> rfl

theorem toMatrix_mul (a b : Matrix4 K) : (a * b).toMatrix = a.toMatrix * b.toMatrix := by
  change (mul a b).toMatrix = _
  ext i j
  fin_cases i <;> fin_cases j <;>
    simp [toMatrix, mul, mulRow, transpose, Row.dot, Matrix.mul_apply, Fin.sum_univ_four]

theorem mul_eq_identity_iff {a b : Matrix4 K} : a * b = identity ↔ a.toMatrix * b.toMatrix = 1 := by
  rw [← toMatrix_mul, ← toMatrix_identity, toMatrix_injective.eq_iff]

theorem toMatrix_mul_adjugate (m : Matrix4 K) :
    m.toMatrix * m.adjugate.toMatrix = m.determinant • (1 : Matrix (Fin 4) (Fin 4) K) := by
  obtain ⟨⟨_, _, _, _⟩, ⟨_, _, _, _⟩, ⟨_, _, _, _⟩, ⟨_, _, _, _⟩⟩ := m
  ext i j
  fin_cases i <;> fin_cases j <;>
    simp [toMatrix, determinant, adjugate, Matrix.mul_apply, Fin.sum_univ_four] <;> ring

theorem toMatrix_scaled (m : Matrix4 K) (k : K) :
    (⟨m.r0.scale k, m.r1.scale k, m.r2.scale k, m.r3.scale k⟩ : Matrix4 K).toMatrix =
      k • m.toMatrix := by
  ext i j
  fin_cases i <;> fin_cases j <;> simp [toMatrix, Row.scale, mul_comm]

theorem toMatrix_mul_inverse? {m n : Matrix4 K} (h : m.inverse? = some n) :
    m.toMatrix * n.toMatrix = 1 := by
  unfold inverse? at h
  dsimp only at h
  split at h
  · cases h
  · rename_i hd
    cases h
    rw [toMatrix_scaled, Matrix.mul_smul, toMatrix_mul_adjugate, smul_smul,
      one_div_mul_cancel (ExactScalar.ne_of_beq hd), one_smul]

end Matrix4

/-! ## Vectors -/

theorem Vec3.normalize_unit {a : Vec3 K} (h : a.norm ≠ 0) :
    a.normalize.x * a.normalize.x + a.normalize.y * a.normalize.y +
      a.normalize.z * a.normalize.z = 1 := by
  have hroot : a.norm * a.norm = a.x * a.x + a.y * a.y + a.z * a.z := ExactScalar.sqrt_mul_self _ _ _ h
  change a.x / a.norm * (a.x / a.norm) + a.y / a.norm * (a.y / a.norm) +
    a.z / a.norm * (a.z / a.norm) = 1
  rw [div_mul_div_comm, div_mul_div_comm, div_mul_div_comm, ← add_div, ← add_div, hroot, div_self]
  exact hroot ▸ mul_ne_zero h h

/-! ## Transforms -/

namespace Transform

/-- Each of the two matrices is the inverse of the other. -/
structure Consistent (t : Transform K) : Prop where
  matrix_mul : t.matrix * t.inverseMatrix = Matrix4.identity
  inverse_mul : t.inverseMatrix * t.matrix = Matrix4.identity

theorem consistent_of_mul {t : Transform K} (h : t.matrix.toMatrix * t.inverseMatrix.toMatrix = 1) :
    t.Consistent :=
  ⟨Matrix4.mul_eq_identity_iff.2 h, Matrix4.mul_eq_identity_iff.2 (mul_eq_one_comm.1 h)⟩

theorem consistent_of_inverse? {m n : Matrix4 K} (h : m.inverse? = some n) :
    (⟨m, n⟩ : Transform K).Consistent := consistent_of_mul (Matrix4.toMatrix_mul_inverse? h)

theorem Consistent.toMatrix_mul {t : Transform K} (h : t.Consistent) :
    t.matrix.toMatrix * t.inverseMatrix.toMatrix = 1 := Matrix4.mul_eq_identity_iff.1 h.matrix_mul

theorem Consistent.inverse {t : Transform K} (h : t.Consistent) : t.inverse.Consistent :=
  ⟨h.inverse_mul, h.matrix_mul⟩

theorem Consistent.mul {a b : Transform K} (ha : a.Consistent) (hb : b.Consistent) :
    (a * b).Consistent := by
  refine consistent_of_mul ?_
  change (a.matrix * b.matrix).toMatrix * (b.inverseMatrix * a.inverseMatrix).toMatrix = 1
  calc (a.matrix * b.matrix).toMatrix * (b.inverseMatrix * a.inverseMatrix).toMatrix
      = a.matrix.toMatrix * (b.matrix.toMatrix * b.inverseMatrix.toMatrix) *
          a.inverseMatrix.toMatrix := by
        rw [Matrix4.toMatrix_mul, Matrix4.toMatrix_mul]
        simp only [Matrix.mul_assoc]
    _ = 1 := by rw [hb.toMatrix_mul, Matrix.mul_one, ha.toMatrix_mul]

/-- Going back to the start of a definition and forth again. -/
theorem Consistent.mul_inverse_mul {b : Transform K} (hb : b.Consistent) (c : Transform K) :
    b * (b.inverse * c) = c := by
  have hmatrix : b.matrix * (b.inverseMatrix * c.matrix) = c.matrix := by
    apply Matrix4.toMatrix_injective
    rw [Matrix4.toMatrix_mul, Matrix4.toMatrix_mul, ← Matrix.mul_assoc, hb.toMatrix_mul, Matrix.one_mul]
  have hinverse : c.inverseMatrix * b.matrix * b.inverseMatrix = c.inverseMatrix := by
    apply Matrix4.toMatrix_injective
    rw [Matrix4.toMatrix_mul, Matrix4.toMatrix_mul, Matrix.mul_assoc, hb.toMatrix_mul, Matrix.mul_one]
  change (⟨b.matrix * (b.inverseMatrix * c.matrix), c.inverseMatrix * b.matrix * b.inverseMatrix⟩ :
    Transform K) = c
  rw [hmatrix, hinverse]

theorem consistent_identity : (identity : Transform K).Consistent := by
  refine consistent_of_mul ?_
  change (Matrix4.identity : Matrix4 K).toMatrix * (Matrix4.identity : Matrix4 K).toMatrix = 1
  rw [Matrix4.toMatrix_identity, Matrix.one_mul]

theorem consistent_translate (d : Vec3 K) : (translate d).Consistent := by
  refine consistent_of_mul ?_
  ext i j
  fin_cases i <;> fin_cases j <;>
    simp [Matrix4.toMatrix, translate, Matrix.mul_apply, Fin.sum_univ_four]

theorem consistent_scale? {k : Vec3 K} {t : Transform K} (h : scale? k = some t) : t.Consistent := by
  unfold scale? at h
  split at h
  · cases h
  · rename_i hk
    simp only [Bool.or_eq_true, not_or] at hk
    obtain ⟨⟨hx, hy⟩, hz⟩ := hk
    have hx := ExactScalar.ne_of_beq hx
    have hy := ExactScalar.ne_of_beq hy
    have hz := ExactScalar.ne_of_beq hz
    cases h
    refine consistent_of_mul ?_
    ext i j
    fin_cases i <;> fin_cases j <;>
      simp [Matrix4.toMatrix, Matrix.mul_apply, Fin.sum_univ_four, hx, hy, hz]

theorem toMatrix_rotation_mul_transpose {a : Vec3 K} {s c : K}
    (ha : a.x * a.x + a.y * a.y + a.z * a.z = 1) (hc : s * s + c * c = 1) :
    (rotation a s c).toMatrix * (rotation a s c).transpose.toMatrix = 1 := by
  ext i j
  fin_cases i <;> fin_cases j <;>
    simp [Matrix4.toMatrix, Matrix4.transpose, rotation, Matrix.mul_apply, Fin.sum_univ_four] <;> grind

theorem consistent_rotate? {degrees : K} {axis : Vec3 K} {t : Transform K}
    (h : rotate? degrees axis = some t) : t.Consistent := by
  unfold rotate? at h
  dsimp only at h
  split at h
  · cases h
  · rename_i haxis
    cases h
    exact consistent_of_mul (toMatrix_rotation_mul_transpose
      (Vec3.normalize_unit (ExactScalar.ne_of_beq haxis)) (ExactScalar.sin_sq_add_cos_sq _))

theorem consistent_lookAt? {eye target up : Vec3 K} {t : Transform K}
    (h : lookAt? eye target up = some t) : t.Consistent := by
  unfold lookAt? at h
  dsimp only at h
  split at h
  · cases h
  · split at h
    · cases h
    · obtain ⟨n, hn, rfl⟩ := Option.map_eq_some_iff.1 h
      exact (consistent_of_inverse? hn).inverse

theorem consistent_ofColumnMajor? {values : List K} {t : Transform K}
    (h : ofColumnMajor? values = some t) : t.Consistent := by
  obtain ⟨m, -, hm⟩ := Option.bind_eq_some_iff.1 h
  obtain ⟨n, hn, rfl⟩ := Option.map_eq_some_iff.1 hm
  exact consistent_of_inverse? hn

end Transform

end SceneConvert
