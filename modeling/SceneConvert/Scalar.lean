/-!
# SceneConvert.Scalar

The numbers that matrices are made of. Scene files carry `Float32` values, and a conversion computes
with them in `Float32`; every matrix formula is written once over `Scalar`, so that it can also be
read in exact arithmetic.

* `Scalar`: the operations a matrix formula uses.
* `Scalar Float32`: the instance a conversion runs with.
-/

namespace SceneConvert

/-- The operations of matrix arithmetic. `ofFloat` reads a number of the scene, `==` is the test a
formula branches on, and `close` is the tolerant test of `Matrix4.isIdentity`. -/
class Scalar (α : Type) extends Zero α, One α, Add α, Sub α, Mul α, Div α, Neg α, BEq α where
  ofFloat : Float32 → α
  sqrt : α → α
  sin : α → α
  cos : α → α
  close : α → α → Bool

namespace Binary32

/-- The tolerance of `close` for entries near zero: the number nearest to `10⁻⁶`. -/
def absoluteTolerance : Float32 := Float32.ofBits 0x358637bd

/-- The tolerance of `close` for larger entries, as a fraction of the larger one: `2⁻²³`. -/
def relativeTolerance : Float32 := Float32.ofBits 0x34000000

/-- Equal, or both finite and within the absolute or the relative tolerance. -/
def close (a b : Float32) : Bool :=
  if a == b then true
  else if a.isInf || b.isInf then false
  else
    let gap := (a - b).abs
    let larger := if a.abs < b.abs then b.abs else a.abs
    decide (gap ≤ absoluteTolerance) || decide (gap ≤ larger * relativeTolerance)

end Binary32

instance : Scalar Float32 where
  zero := Float32.ofBits 0
  one := Float32.ofBits 0x3f800000
  ofFloat v := v
  sqrt := Float32.sqrt
  sin := Float32.sin
  cos := Float32.cos
  close := Binary32.close

end SceneConvert
