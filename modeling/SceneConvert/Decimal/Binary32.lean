/-!
# SceneConvert.Decimal.Binary32

Decimal numbers and the 32-bit floats nearest to them, in exact arithmetic.

A float without its sign is a *magnitude*: the lower 31 bits as a number. Magnitudes are ordered as
the values they stand for, with `infinity` on top of the finite ones and not-a-number above it.

* `nearest num den`: the magnitude nearest to `num / den`; of two equally near, the even one.
* `ofDecimal`: the magnitude nearest to a decimal number.
* `exact`: the decimal number that a finite magnitude stands for.
-/

namespace SceneConvert

/-- The number `coefficient · 10 ^ exponent`. -/
structure Decimal where
  coefficient : Nat
  exponent : Int
  deriving Repr, DecidableEq

namespace Binary32

/-- The magnitude of infinity, the first that is not finite. -/
def infinity : Nat := 0x7f800000

/-- The largest `k` with `2 ^ k ≤ num / den`, for positive `num` and `den`. -/
def floorLog2 (num den : Nat) : Int :=
  let k : Int := num.log2 - den.log2
  if den * Nat.pow 2 k.toNat ≤ num * Nat.pow 2 (-k).toNat then k else k - 1

/-- The integer nearest to `num / den`, a half going to the even neighbour. -/
def roundHalfEven (num den : Nat) : Nat :=
  let q := num / den
  let r := num % den
  if 2 * r < den then q
  else if den < 2 * r then q + 1
  else if q % 2 = 0 then q else q + 1

/-- The magnitude nearest to `num / den`, a half going to the even neighbour. The value is rounded to
a multiple `m` of `2 ^ e`, the spacing of the floats around it. Patterns of neighbouring floats
differ by one, also where the spacing doubles, so that the pattern is `m` plus an offset for `e`. -/
def nearest (num den : Nat) : Nat :=
  if num = 0 then 0
  else
    let e : Int := max (floorLog2 num den - 23) (-149)
    let m := roundHalfEven (num * Nat.pow 2 (-e).toNat) (den * Nat.pow 2 e.toNat)
    min ((e + 149).toNat * Nat.pow 2 23 + m) infinity

/-- The magnitude nearest to a decimal number. Exponents far outside the range of the floats give
infinity or zero without computing the power. -/
def ofDecimal (d : Decimal) : Nat :=
  if d.coefficient = 0 then 0
  else if 64 < d.exponent then infinity
  else if d.exponent < -(65 + d.coefficient.log2 : Int) then 0
  else nearest (d.coefficient * Nat.pow 10 d.exponent.toNat) (Nat.pow 10 (-d.exponent).toNat)

def float (negative : Bool) (magnitude : Nat) : Float32 :=
  Float32.ofBits (UInt32.ofNat (if negative then Nat.pow 2 31 + magnitude else magnitude))

def isNegative (v : Float32) : Bool := Nat.pow 2 31 ≤ v.toBits.toNat

def magnitude (v : Float32) : Nat := v.toBits.toNat % Nat.pow 2 31

/-- The significand `m` and exponent `q` of a finite magnitude, which stands for `m · 2 ^ q`. -/
def significand (magnitude : Nat) : Nat × Int :=
  let fraction := magnitude % Nat.pow 2 23
  match magnitude / Nat.pow 2 23 with
  | 0 => (fraction, -149)
  | e + 1 => (fraction + Nat.pow 2 23, e - 149)

/-- The decimal number that a finite magnitude stands for: `m · 2 ^ q` is an integer, or
`m · 5 ^ (-q)` over a power of ten. -/
def exact (magnitude : Nat) : Decimal :=
  let (m, q) := significand magnitude
  if 0 ≤ q then ⟨m * Nat.pow 2 q.toNat, 0⟩ else ⟨m * Nat.pow 5 (-q).toNat, q⟩

def ofInt (i : Int) : Float32 := float (i < 0) (nearest i.natAbs 1)

def constant (coefficient : Int) (places : Nat) : Float32 :=
  float (coefficient < 0) (nearest coefficient.natAbs (Nat.pow 10 places))

def notANumber : Float32 := Float32.ofBits 0x7fc00000

end Binary32

end SceneConvert
