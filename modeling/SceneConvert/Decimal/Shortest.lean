import SceneConvert.Decimal.Binary32

/-!
# SceneConvert.Decimal.Shortest

Written forms of 32-bit floats.

* `shortest`: among the decimal numbers that read back as a given magnitude, the one with the fewest
  digits; of several, the nearest, and the larger one of two equally near.
* `positional`: digits and perhaps a point with digits, never an exponent.
* `text`: the shortest form, where an integral number has no point.
* `literal`: the same with `.0` behind an integral number, as output files write floats.
-/

namespace SceneConvert

namespace Decimal

/-- Digits, a point where there is a fraction, and no trailing zeros in the fraction. -/
def positional (d : Decimal) : List Char :=
  let digits := Nat.toDigits 10 d.coefficient
  if 0 ≤ d.exponent then digits ++ List.replicate d.exponent.toNat '0'
  else
    let places := (-d.exponent).toNat
    let padded := List.replicate (places + 1 - digits.length) '0' ++ digits
    let whole := padded.take (padded.length - places)
    let fraction := ((padded.drop (padded.length - places)).reverse.dropWhile (· == '0')).reverse
    if fraction.isEmpty then whole else whole ++ '.' :: fraction

end Decimal

namespace Binary32

/-- The best number on the grid that drops `k` digits of `d`, if one of the two that enclose `d`
reads back as `magnitude`. -/
def onGrid? (magnitude : Nat) (d : Decimal) (k : Nat) : Option Decimal :=
  let unit := Nat.pow 10 k
  let below : Decimal := ⟨d.coefficient / unit, d.exponent + k⟩
  let above : Decimal := ⟨d.coefficient / unit + 1, d.exponent + k⟩
  match ofDecimal below == magnitude, ofDecimal above == magnitude with
  | true, true => some (if 2 * (d.coefficient % unit) < unit then below else above)
  | true, false => some below
  | false, true => some above
  | false, false => none

/-- The first hit on grids that drop `k` digits of `d`, then `k - 1`, and so on down to `d` itself. -/
def searchGrids (magnitude : Nat) (d : Decimal) : Nat → Decimal
  | 0 => d
  | k + 1 => (onGrid? magnitude d (k + 1)).getD (searchGrids magnitude d k)

/-- The shortest decimal number that reads back as a finite magnitude. -/
def shortest (magnitude : Nat) : Decimal :=
  let d := exact magnitude
  searchGrids magnitude d ((Nat.toDigits 10 d.coefficient).length - 1)

/-- The written form of a magnitude, and whether it is a decimal number. -/
def magnitudeText (magnitude : Nat) : List Char :=
  if magnitude < infinity then (shortest magnitude).positional
  else if magnitude = infinity then ['i', 'n', 'f']
  else ['N', 'a', 'N']

def signText (v : Float32) : List Char :=
  if isNegative v && magnitude v ≤ infinity then ['-'] else []

def text (v : Float32) : String := String.ofList (signText v ++ magnitudeText (magnitude v))

/-- The shortest form of a float, with a point in every finite number. -/
def literal (v : Float32) : String :=
  let form := magnitudeText (magnitude v)
  let point := if magnitude v < infinity && !form.contains '.' then ['.', '0'] else []
  String.ofList (signText v ++ form ++ point)

def literalList (values : List Float32) : String :=
  "[" ++ String.intercalate "," (values.map literal) ++ "]"

end Binary32

def integerList (values : List Int) : String :=
  "[" ++ String.intercalate "," (values.map fun i => toString i) ++ "]"

end SceneConvert
