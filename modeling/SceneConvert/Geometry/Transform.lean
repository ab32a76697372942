import SceneConvert.Geometry.Matrix
import SceneConvert.Geometry.Vector

/-!
# SceneConvert.Geometry.Transform

Affine maps that carry their inverse along.

* `translate`, `scale?`, `rotate?`, `lookAt?`, `ofMatrix?`, `ofColumnMajor?`: the transforms a scene
  can name; the partial ones refuse what has no inverse.
* `mul`, `inverse`: composition and inversion, on both matrices at once.
* `point`, `vector`: application.
-/

namespace SceneConvert

structure Transform (α : Type) where
  matrix : Matrix4 α
  inverseMatrix : Matrix4 α
  deriving Repr, DecidableEq

/-- The radians in one degree, rounded once. -/
def radiansPerDegree : Float32 := Float32.ofBits 0x3c8efa35

namespace Transform

variable {α : Type} [Scalar α]

def identity : Transform α := ⟨Matrix4.identity, Matrix4.identity⟩

def inverse (t : Transform α) : Transform α := ⟨t.inverseMatrix, t.matrix⟩

def mul (a b : Transform α) : Transform α :=
  ⟨a.matrix * b.matrix, b.inverseMatrix * a.inverseMatrix⟩

instance : Mul (Transform α) := ⟨mul⟩

def ofMatrix? (m : Matrix4 α) : Option (Transform α) := m.inverse?.map (⟨m, ·⟩)

/-- The transform of a scene's sixteen numbers, which list the matrix column by column. -/
def ofColumnMajor? (values : List α) : Option (Transform α) :=
  (Matrix4.ofRowMajor? values).bind fun m => ofMatrix? m.transpose

def isIdentity (t : Transform α) : Bool := t.matrix.isIdentity

def translate (d : Vec3 α) : Transform α where
  matrix := ⟨⟨1, 0, 0, d.x⟩, ⟨0, 1, 0, d.y⟩, ⟨0, 0, 1, d.z⟩, ⟨0, 0, 0, 1⟩⟩
  inverseMatrix := ⟨⟨1, 0, 0, -d.x⟩, ⟨0, 1, 0, -d.y⟩, ⟨0, 0, 1, -d.z⟩, ⟨0, 0, 0, 1⟩⟩

/-- Scaling along the axes, by factors none of which is zero. -/
def scale? (k : Vec3 α) : Option (Transform α) :=
  if k.x == 0 || k.y == 0 || k.z == 0 then none
  else some {
    matrix := ⟨⟨k.x, 0, 0, 0⟩, ⟨0, k.y, 0, 0⟩, ⟨0, 0, k.z, 0⟩, ⟨0, 0, 0, 1⟩⟩
    inverseMatrix := ⟨⟨1 / k.x, 0, 0, 0⟩, ⟨0, 1 / k.y, 0, 0⟩, ⟨0, 0, 1 / k.z, 0⟩, ⟨0, 0, 0, 1⟩⟩ }

/-- The matrix that turns by an angle, given its sine and cosine, around the unit vector `a`. -/
def rotation (a : Vec3 α) (s c : α) : Matrix4 α where
  r0 := ⟨a.x * a.x + (1 - a.x * a.x) * c, a.x * a.y * (1 - c) - a.z * s,
    a.x * a.z * (1 - c) + a.y * s, 0⟩
  r1 := ⟨a.x * a.y * (1 - c) + a.z * s, a.y * a.y + (1 - a.y * a.y) * c,
    a.y * a.z * (1 - c) - a.x * s, 0⟩
  r2 := ⟨a.x * a.z * (1 - c) - a.y * s, a.y * a.z * (1 - c) + a.x * s,
    a.z * a.z + (1 - a.z * a.z) * c, 0⟩
  r3 := ⟨0, 0, 0, 1⟩

/-- Rotation by `degrees` around an axis of non-zero length. -/
def rotate? (degrees : α) (axis : Vec3 α) : Option (Transform α) :=
  if axis.norm == 0 then none
  else
    let angle := Scalar.ofFloat radiansPerDegree * degrees
    let m := rotation axis.normalize (Scalar.sin angle) (Scalar.cos angle)
    some ⟨m, m.transpose⟩

/-- The camera-to-world matrix with these three axes and origin. -/
def frame (right up forward origin : Vec3 α) : Matrix4 α where
  r0 := ⟨right.x, up.x, forward.x, origin.x⟩
  r1 := ⟨right.y, up.y, forward.y, origin.y⟩
  r2 := ⟨right.z, up.z, forward.z, origin.z⟩
  r3 := ⟨0, 0, 0, 1⟩

/-- World to camera for an eye at `eye` that looks at `target`, if `target` is elsewhere and `up` is
not along the line of sight. -/
def lookAt? (eye target up : Vec3 α) : Option (Transform α) :=
  let sight := target.sub eye
  if sight.norm == 0 || up.norm == 0 then none
  else
    let forward := sight.normalize
    let side := up.normalize.cross forward
    if side.norm == 0 then none
    else
      let right := side.normalize
      let cameraToWorld := frame right (forward.cross right) forward eye
      cameraToWorld.inverse?.map (⟨·, cameraToWorld⟩)

/-- The image of a point: divided by the fourth coordinate unless that is one. -/
def point (t : Transform α) (p : Vec3 α) : Vec3 α :=
  let coordinate (r : Row α) : α := p.x * r.x + p.y * r.y + p.z * r.z + r.w
  let x := coordinate t.matrix.r0
  let y := coordinate t.matrix.r1
  let z := coordinate t.matrix.r2
  let w := coordinate t.matrix.r3
  if w == 1 then ⟨x, y, z⟩ else ⟨x / w, y / w, z / w⟩

def vector (t : Transform α) (v : Vec3 α) : Vec3 α :=
  let along (r : Row α) : α := r.x * v.x + r.y * v.y + r.z * v.z
  ⟨along t.matrix.r0, along t.matrix.r1, along t.matrix.r2⟩

def rowMajor (t : Transform α) : List α := t.matrix.rowMajor

end Transform

end SceneConvert
