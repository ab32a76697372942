import SceneConvert.Scalar

/-!
# SceneConvert.Geometry.Vector

Points and directions in space.
-/

namespace SceneConvert

structure Vec3 (α : Type) where
  x : α
  y : α
  z : α
  deriving Repr, DecidableEq

namespace Vec3

variable {α : Type} [Scalar α]

def ofFloats (x y z : Float32) : Vec3 α := ⟨Scalar.ofFloat x, Scalar.ofFloat y, Scalar.ofFloat z⟩

def sub (a b : Vec3 α) : Vec3 α := ⟨a.x - b.x, a.y - b.y, a.z - b.z⟩

def norm (a : Vec3 α) : α := Scalar.sqrt (a.x * a.x + a.y * a.y + a.z * a.z)

def normalize (a : Vec3 α) : Vec3 α :=
  let n := a.norm
  ⟨a.x / n, a.y / n, a.z / n⟩

def cross (a b : Vec3 α) : Vec3 α :=
  ⟨a.y * b.z - a.z * b.y, a.z * b.x - a.x * b.z, a.x * b.y - a.y * b.x⟩

def toList (a : Vec3 α) : List α := [a.x, a.y, a.z]

end Vec3

end SceneConvert
