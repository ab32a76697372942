import SceneConvert.Proofs.Geometry.Exact

/-!
# SceneConvert.Proofs.Geometry.LookAt

What a view is, in exact arithmetic.

* `Vec3.dot`, with the identities that tie it to cross products, and the lengths of real vectors.
* `Transform.inverse?_frame`: the inverse of a frame whose axes are orthonormal.
* `Transform.IsView`: a transform takes an eye to the origin and what it looks at straight ahead.
* `Transform.lookAt?_isView`: the transform of an eye, a target and an upward direction is the view of
  them; there is none only where they do not tell a direction of sight and an upright.
-/

namespace SceneConvert

/-! ## Products of vectors -/

namespace Vec3

section

variable {K : Type} [ExactScalar K]

def dot (a b : Vec3 K) : K := a.x * b.x + a.y * b.y + a.z * b.z

def times (k : K) (a : Vec3 K) : Vec3 K := ⟨k * a.x, k * a.y, k * a.z⟩

def zero : Vec3 K := ⟨0, 0, 0⟩

def IsAlong (a b : Vec3 K) : Prop := ∃ k : K, a = b.times k

/-- Two vectors of length one at a right angle. -/
structure Orthonormal (a b : Vec3 K) : Prop where
  left : a.dot a = 1
  right : b.dot b = 1
  between : a.dot b = 0

theorem dot_comm (a b : Vec3 K) : a.dot b = b.dot a := by
  unfold dot
  ring

theorem dot_times (k : K) (a b : Vec3 K) : a.dot (b.times k) = k * a.dot b := by
  unfold dot times
  ring

theorem dot_cross_left (a b : Vec3 K) : a.dot (a.cross b) = 0 := by
  unfold dot cross
  ring

theorem dot_cross_right (a b : Vec3 K) : b.dot (a.cross b) = 0 := by
  unfold dot cross
  ring

theorem dot_cross_rotate (a b c : Vec3 K) : (a.cross b).dot c = b.dot (c.cross a) := by
  unfold dot cross
  ring

theorem cross_cross (a b c : Vec3 K) :
    a.cross (b.cross c) = (b.times (a.dot c)).sub (c.times (a.dot b)) := by
  unfold cross sub times dot
  congr 1 <;> ring

theorem dot_zero (a : Vec3 K) : a.dot zero = 0 := by
  unfold dot zero
  ring

theorem sub_self (a : Vec3 K) : a.sub a = zero := by
  unfold sub zero
  congr 1 <;> ring

theorem eq_of_sub_eq_zero {a b : Vec3 K} (h : a.sub b = zero) : a = b := by
  unfold sub zero at h
  injection h with hx hy hz
  obtain ⟨x, y, z⟩ := a
  congr 1
  · exact sub_eq_zero.1 hx
  · exact sub_eq_zero.1 hy
  · exact sub_eq_zero.1 hz

theorem times_one (a : Vec3 K) : a.times 1 = a := by
  unfold times
  congr 1 <;> exact one_mul _

theorem times_times (j k : K) (a : Vec3 K) : (a.times k).times j = a.times (j * k) := by
  unfold times
  congr 1 <;> ring

theorem cross_zero (a : Vec3 K) : a.cross zero = zero := by
  unfold cross zero
  congr 1 <;> ring

theorem cross_times_self (j k : K) (a : Vec3 K) : (a.times j).cross (a.times k) = zero := by
  unfold cross times zero
  congr 1 <;> ring

theorem dot_cross_mul_self (a b v : Vec3 K) :
    (a.cross b).dot v * (a.cross b).dot v =
      a.dot a * b.dot b * v.dot v + 2 * a.dot b * b.dot v * a.dot v - a.dot a * (b.dot v * b.dot v) -
        b.dot b * (a.dot v * a.dot v) - v.dot v * (a.dot b * a.dot b) := by
  unfold dot cross
  ring

theorem dot_cross_self (a b : Vec3 K) :
    (a.cross b).dot (a.cross b) = a.dot a * b.dot b - a.dot b * a.dot b := by
  unfold dot cross
  ring

theorem Orthonormal.sum_mul_self {a b : Vec3 K} (h : Orthonormal a b) (v : Vec3 K) :
    a.dot v * a.dot v + (b.cross a).dot v * (b.cross a).dot v + b.dot v * b.dot v = v.dot v := by
  rw [dot_cross_mul_self, h.left, h.right, dot_comm b a, h.between]
  ring

theorem normalize_eq_times (a : Vec3 K) : a.normalize = a.times a.norm⁻¹ := by
  unfold normalize times
  dsimp only
  congr 1 <;> exact div_eq_inv_mul (_ : K) _

theorem times_norm_normalize {a : Vec3 K} (h : a.norm ≠ 0) : a.normalize.times a.norm = a := by
  rw [normalize_eq_times, times_times, mul_inv_cancel₀ h, times_one]

theorem dot_eq_norm_mul {a : Vec3 K} (h : a.norm ≠ 0) (b : Vec3 K) :
    b.dot a = a.norm * b.dot a.normalize := by
  rw [← dot_times, times_norm_normalize h]

theorem dot_normalize_self {a : Vec3 K} (h : a.norm ≠ 0) : a.normalize.dot a.normalize = 1 :=
  normalize_unit h

end

/-! ## Lengths -/

theorem norm_eq_sqrt (a : Vec3 ℝ) : a.norm = √(a.dot a) := rfl

theorem dot_self_nonneg (a : Vec3 ℝ) : 0 ≤ a.dot a :=
  add_nonneg (add_nonneg (mul_self_nonneg a.x) (mul_self_nonneg a.y)) (mul_self_nonneg a.z)

theorem norm_nonneg (a : Vec3 ℝ) : 0 ≤ a.norm := Real.sqrt_nonneg _

theorem norm_eq_zero_iff {a : Vec3 ℝ} : a.norm = 0 ↔ a = zero := by
  rw [norm_eq_sqrt, Real.sqrt_eq_zero (dot_self_nonneg a)]
  obtain ⟨x, y, z⟩ := a
  have hsum : x * x + y * y + z * z = 0 ↔ (x = 0 ∧ y = 0) ∧ z = 0 := by
    have hxy := add_nonneg (mul_self_nonneg x) (mul_self_nonneg y)
    rw [add_eq_zero_iff_of_nonneg hxy (mul_self_nonneg z),
      add_eq_zero_iff_of_nonneg (mul_self_nonneg x) (mul_self_nonneg y)]
    simp only [mul_self_eq_zero]
  simpa [zero, dot, and_assoc] using hsum

end Vec3

/-! ## Frames -/

namespace Transform

section

variable {K : Type} [ExactScalar K]

/-- The matrix that measures points from `eye` along three axes. -/
def viewMatrix (right up forward eye : Vec3 K) : Matrix4 K where
  r0 := ⟨right.x, right.y, right.z, -right.dot eye⟩
  r1 := ⟨up.x, up.y, up.z, -up.dot eye⟩
  r2 := ⟨forward.x, forward.y, forward.z, -forward.dot eye⟩
  r3 := ⟨0, 0, 0, 1⟩

theorem toMatrix_viewMatrix_mul_frame (a b c eye : Vec3 K) :
    (viewMatrix a b c eye).toMatrix * (frame a b c eye).toMatrix =
      !![a.dot a, a.dot b, a.dot c, 0; b.dot a, b.dot b, b.dot c, 0;
         c.dot a, c.dot b, c.dot c, 0; 0, 0, 0, 1] := by
  ext i j
  fin_cases i <;> fin_cases j <;>
    simp [Matrix4.toMatrix, viewMatrix, frame, Matrix.mul_apply, Fin.sum_univ_four, Vec3.dot]

theorem determinant_frame (right forward eye : Vec3 K) :
    (frame right (forward.cross right) forward eye).determinant =
      right.dot right * forward.dot forward - right.dot forward * right.dot forward := by
  simp only [Matrix4.determinant, Matrix4.adjugate, frame, Vec3.cross, Vec3.dot]
  ring

/-- The inverse of a frame with orthonormal axes measures along them. -/
theorem inverse?_frame {right forward : Vec3 K} (h : right.Orthonormal forward) (eye : Vec3 K) :
    (frame right (forward.cross right) forward eye).inverse? =
      some (viewMatrix right (forward.cross right) forward eye) := by
  have hinverse : (viewMatrix right (forward.cross right) forward eye).toMatrix *
      (frame right (forward.cross right) forward eye).toMatrix = 1 := by
    have hup : (forward.cross right).dot (forward.cross right) = 1 := by
      rw [Vec3.dot_cross_self, h.left, h.right, Vec3.dot_comm, h.between]
      ring
    rw [toMatrix_viewMatrix_mul_frame, h.left, h.right, h.between, hup, Vec3.dot_comm forward right,
      h.between, Vec3.dot_comm _ right, Vec3.dot_comm _ forward, Vec3.dot_cross_left,
      Vec3.dot_cross_right]
    ext i j
    fin_cases i <;> fin_cases j <;> rfl
  cases hframe : (frame right (forward.cross right) forward eye).inverse? with
  | none =>
    have hdet : (frame right (forward.cross right) forward eye).determinant = 1 := by
      rw [determinant_frame, h.left, h.right, h.between]
      ring
    unfold Matrix4.inverse? at hframe
    dsimp only at hframe
    split at hframe
    · rename_i hzero
      rw [ExactScalar.beq_iff, hdet] at hzero
      exact absurd hzero one_ne_zero
    · cases hframe
  | some m =>
    have hm := Matrix4.toMatrix_mul_inverse? hframe
    exact congrArg some (Matrix4.toMatrix_injective (left_inv_eq_right_inv hinverse hm)).symm

theorem point_viewMatrix (a b c eye p : Vec3 K) (m : Matrix4 K) :
    (⟨viewMatrix a b c eye, m⟩ : Transform K).point p =
      ⟨a.dot (p.sub eye), b.dot (p.sub eye), c.dot (p.sub eye)⟩ := by
  have along (a : Vec3 K) : p.x * a.x + p.y * a.y + p.z * a.z + -a.dot eye = a.dot (p.sub eye) := by
    unfold Vec3.dot Vec3.sub
    ring
  have hw : p.x * 0 + p.y * 0 + p.z * 0 + 1 = (1 : K) := by ring
  unfold point viewMatrix
  dsimp only
  rw [if_pos ((ExactScalar.beq_iff _ _).2 hw), along, along, along]

theorem vector_viewMatrix (a b c eye v : Vec3 K) (m : Matrix4 K) :
    (⟨viewMatrix a b c eye, m⟩ : Transform K).vector v = ⟨a.dot v, b.dot v, c.dot v⟩ := rfl

/-! ## Views -/

/-- What an upward direction and a line of sight have in common with a third direction, to the right. -/
def side (sight up : Vec3 K) : Vec3 K := up.normalize.cross sight.normalize

theorem orthonormal_axes {sight up : Vec3 K} (hsight : sight.norm ≠ 0)
    (hside : (side sight up).norm ≠ 0) :
    (side sight up).normalize.Orthonormal sight.normalize where
  left := Vec3.dot_normalize_self hside
  right := Vec3.dot_normalize_self hsight
  between := by
    have hcross : (side sight up).norm * sight.normalize.dot (side sight up).normalize = 0 := by
      rw [← Vec3.dot_eq_norm_mul hside]
      exact Vec3.dot_cross_right _ _
    rw [Vec3.dot_comm]
    exact (mul_eq_zero.1 hcross).resolve_left hside

/-- The view from an eye along a line of sight, some direction being upward. -/
def view (eye sight up : Vec3 K) : Transform K :=
  let right := (side sight up).normalize
  let forward := sight.normalize
  ⟨viewMatrix right (forward.cross right) forward eye, frame right (forward.cross right) forward eye⟩

/-- There is a view, unless one of three vectors has no length. -/
theorem lookAt?_cases (eye target up : Vec3 K) :
    ((target.sub eye).norm = 0 ∨ up.norm = 0 ∨ (side (target.sub eye) up).norm = 0) ∧
        lookAt? eye target up = none ∨
      ((target.sub eye).norm ≠ 0 ∧ up.norm ≠ 0 ∧ (side (target.sub eye) up).norm ≠ 0) ∧
        lookAt? eye target up = some (view eye (target.sub eye) up) := by
  unfold lookAt?
  dsimp only
  split
  · rename_i hzero
    rw [Bool.or_eq_true, ExactScalar.beq_iff, ExactScalar.beq_iff] at hzero
    exact .inl ⟨hzero.imp_right .inl, rfl⟩
  · rename_i hzero
    rw [Bool.or_eq_true, ExactScalar.beq_iff, ExactScalar.beq_iff, not_or] at hzero
    obtain ⟨hsight, hup⟩ := hzero
    split
    · rename_i hside
      exact .inl ⟨.inr (.inr ((ExactScalar.beq_iff _ _).1 hside)), rfl⟩
    · rename_i hside
      have hside : (side (target.sub eye) up).norm ≠ 0 := ExactScalar.ne_of_beq hside
      refine .inr ⟨⟨hsight, hup, hside⟩, ?_⟩
      change (frame (side (target.sub eye) up).normalize
        ((target.sub eye).normalize.cross (side (target.sub eye) up).normalize)
        (target.sub eye).normalize eye).inverse?.map _ = _
      rw [inverse?_frame (orthonormal_axes hsight hside)]
      rfl

end

/-- A transform that takes the eye to the origin, the target straight ahead of it, and the direction `up`
to one that is level and above the line of sight, and that keeps all lengths. -/
structure IsView (eye target up : Vec3 ℝ) (t : Transform ℝ) : Prop where
  origin : t.point eye = ⟨0, 0, 0⟩
  ahead : t.point target = ⟨0, 0, (target.sub eye).norm⟩
  level : (t.vector up).x = 0
  above : 0 < (t.vector up).y
  length : ∀ v, (t.vector v).norm = v.norm

/-- The direction to the right has no length exactly if `up` is along the line of sight. -/
theorem norm_side_eq_zero_iff {sight up : Vec3 ℝ} (hsight : sight.norm ≠ 0) (hup : up.norm ≠ 0) :
    (side sight up).norm = 0 ↔ up.IsAlong sight := by
  rw [Vec3.norm_eq_zero_iff]
  constructor
  · intro hside
    let along := sight.normalize.dot up.normalize
    have hnormal : up.normalize = sight.normalize.times along := by
      have hcross := Vec3.cross_cross sight.normalize up.normalize sight.normalize
      rw [show up.normalize.cross sight.normalize = Vec3.zero from hside, Vec3.cross_zero,
        Vec3.dot_normalize_self hsight, Vec3.times_one] at hcross
      exact Vec3.eq_of_sub_eq_zero hcross.symm
    refine ⟨up.norm * along * sight.norm⁻¹, ?_⟩
    calc up = up.normalize.times up.norm := (Vec3.times_norm_normalize hup).symm
      _ = ((sight.times sight.norm⁻¹).times along).times up.norm := by
        rw [hnormal, ← Vec3.normalize_eq_times]
      _ = sight.times (up.norm * along * sight.norm⁻¹) := by rw [Vec3.times_times, Vec3.times_times]
  · rintro ⟨k, rfl⟩
    rw [side, Vec3.normalize_eq_times (Vec3.times k sight), Vec3.times_times,
      Vec3.normalize_eq_times sight]
    exact Vec3.cross_times_self _ _ _

theorem isView_view {eye target up : Vec3 ℝ} (hsight : (target.sub eye).norm ≠ 0) (hup : up.norm ≠ 0)
    (hside : (side (target.sub eye) up).norm ≠ 0) :
    IsView eye target up (view eye (target.sub eye) up) := by
  let sight := target.sub eye
  let forward := sight.normalize
  let right := (side sight up).normalize
  have haxes : right.Orthonormal forward := orthonormal_axes hsight hside
  constructor
  case origin =>
    unfold view
    dsimp only
    rw [point_viewMatrix, Vec3.sub_self, Vec3.dot_zero, Vec3.dot_zero, Vec3.dot_zero]
  case ahead =>
    unfold view
    dsimp only
    rw [point_viewMatrix, Vec3.dot_eq_norm_mul hsight, Vec3.dot_eq_norm_mul hsight,
      Vec3.dot_eq_norm_mul hsight, Vec3.dot_comm (Vec3.cross _ _), Vec3.dot_cross_left,
      haxes.between, haxes.right, mul_zero, mul_one]
  case level =>
    have hcross : (side sight up).norm * up.normalize.dot right = 0 := by
      rw [← Vec3.dot_eq_norm_mul hside]
      exact Vec3.dot_cross_left _ _
    have hright : right.dot up.normalize = 0 := by
      rw [Vec3.dot_comm]
      exact (mul_eq_zero.1 hcross).resolve_left hside
    unfold view
    dsimp only
    rw [vector_viewMatrix, Vec3.dot_eq_norm_mul hup, hright, mul_zero]
  case above =>
    have habove : (forward.cross right).dot up = up.norm * (side sight up).norm := by
      calc (forward.cross right).dot up
          = up.norm * (forward.cross right).dot up.normalize := Vec3.dot_eq_norm_mul hup _
        _ = up.norm * right.dot (side sight up) := by rw [Vec3.dot_cross_rotate]; rfl
        _ = up.norm * ((side sight up).norm * right.dot right) := by
            rw [Vec3.dot_eq_norm_mul hside]
        _ = up.norm * (side sight up).norm := by rw [haxes.left, mul_one]
    unfold view
    dsimp only
    rw [vector_viewMatrix, habove]
    exact mul_pos (up.norm_nonneg.lt_of_ne hup.symm) ((side sight up).norm_nonneg.lt_of_ne hside.symm)
  case length =>
    intro v
    unfold view
    dsimp only
    rw [vector_viewMatrix, Vec3.norm_eq_sqrt, Vec3.norm_eq_sqrt, ← haxes.sum_mul_self v]
    rfl

/-- An eye that looks at a target sees it straight ahead, and the upward direction above; there is no
view only of a target where the eye is, without an upward direction, or with one along the line of
sight. -/
theorem lookAt?_isView (eye target up : Vec3 ℝ) :
    (∀ t, lookAt? eye target up = some t → IsView eye target up t) ∧
      (lookAt? eye target up = none ↔
        eye = target ∨ up = ⟨0, 0, 0⟩ ∨ up.IsAlong (target.sub eye)) := by
  have hsame : (target.sub eye).norm = 0 ↔ eye = target := by
    rw [Vec3.norm_eq_zero_iff]
    exact ⟨fun h => (Vec3.eq_of_sub_eq_zero h).symm, fun h => h ▸ Vec3.sub_self eye⟩
  have hzero : up.norm = 0 ↔ up = ⟨0, 0, 0⟩ := Vec3.norm_eq_zero_iff
  have hdegenerate : ((target.sub eye).norm = 0 ∨ up.norm = 0 ∨ (side (target.sub eye) up).norm = 0) ↔
      eye = target ∨ up = ⟨0, 0, 0⟩ ∨ up.IsAlong (target.sub eye) := by
    rw [← hsame, ← hzero]
    by_cases hsight : (target.sub eye).norm = 0
    · simp [hsight]
    by_cases hup : up.norm = 0
    · simp [hup]
    simp [hsight, hup, norm_side_eq_zero_iff hsight hup]
  rw [← hdegenerate]
  rcases lookAt?_cases eye target up with ⟨hnot, hnone⟩ | ⟨⟨hsight, hup, hside⟩, hsome⟩
  · rw [hnone]
    exact ⟨nofun, iff_of_true rfl hnot⟩
  · rw [hsome]
    refine ⟨?_, iff_of_false nofun (by simp [hsight, hup, hside])⟩
    rintro t ⟨⟩
    exact isView_view hsight hup hside

/-- An eye above the origin that looks down on it, north being upward. -/
theorem lookAt?_isView_downward :
    ∃ t : Transform ℝ, lookAt? ⟨0, 0, 5⟩ ⟨0, 0, 0⟩ ⟨0, 2, 0⟩ = some t ∧
      t.point ⟨0, 0, 0⟩ = ⟨0, 0, 5⟩ ∧ (t.vector ⟨0, 2, 0⟩).x = 0 ∧ 0 < (t.vector ⟨0, 2, 0⟩).y := by
  obtain ⟨hview, hnone⟩ := lookAt?_isView ⟨0, 0, 5⟩ ⟨0, 0, 0⟩ ⟨0, 2, 0⟩
  have hdistance : Vec3.norm (Vec3.sub ⟨0, 0, 0⟩ ⟨0, 0, 5⟩ : Vec3 ℝ) = 5 := by
    rw [Vec3.norm_eq_sqrt, Real.sqrt_eq_iff_mul_self_eq (Vec3.dot_self_nonneg _) (by norm_num)]
    norm_num [Vec3.dot, Vec3.sub]
  cases h : lookAt? (⟨0, 0, 5⟩ : Vec3 ℝ) ⟨0, 0, 0⟩ ⟨0, 2, 0⟩ with
  | none =>
    rcases hnone.1 h with heye | hup | ⟨k, hk⟩
    · injection heye with _ _ hz
      norm_num at hz
    · injection hup with _ hy
      norm_num at hy
    · injection hk with _ hy
      norm_num [Vec3.sub] at hy
  | some t =>
    have ht := hview t h
    exact ⟨t, rfl, hdistance ▸ ht.ahead, ht.level, ht.above⟩

end Transform

end SceneConvert
