import SceneConvert.Decimal.Binary32
import SceneConvert.Text.CharacterClass

/-!
# SceneConvert.Decimal.Numeral

The written form of numbers in a scene.

A numeral is an optional sign, digits with an optional point and more digits, or a point with digits,
and then an optional exponent. Its digits may be of any decimal digit system, but only numerals in
ASCII digits have a value.

* `Numeral.ofChars?`: the numeral that a word spells, if it spells one.
* `Numeral.integer?`, `Numeral.float?`: its value.
-/

namespace SceneConvert

/-- The parts of a written number. -/
structure Numeral where
  negative : Bool
  whole : List Char
  /-- The digits behind the point, if there is a point. -/
  fraction : Option (List Char)
  /-- The sign and the digits of the exponent. -/
  exponent : Option (Bool × List Char)
  deriving Repr, DecidableEq

namespace Numeral

def takeSign : List Char → Bool × List Char
  | '+' :: cs => (false, cs)
  | '-' :: cs => (true, cs)
  | cs => (false, cs)

/-- The exponent that ends a numeral: nothing, or `e`, a sign and at least one digit. -/
def exponent? : List Char → Option (Option (Bool × List Char))
  | [] => some none
  | c :: cs =>
    let (negative, digits) := takeSign cs
    if (c == 'e' || c == 'E') && !digits.isEmpty && digits.all isDecimalDigit then
      some (some (negative, digits))
    else none

def ofChars? (cs : List Char) : Option Numeral :=
  let (negative, body) := takeSign cs
  let whole := body.takeWhile isDecimalDigit
  match body.dropWhile isDecimalDigit with
  | '.' :: rest =>
    let fraction := rest.takeWhile isDecimalDigit
    if whole.isEmpty && fraction.isEmpty then none
    else (exponent? (rest.dropWhile isDecimalDigit)).map (⟨negative, whole, some fraction, ·⟩)
  | rest =>
    if whole.isEmpty then none else (exponent? rest).map (⟨negative, whole, none, ·⟩)

def isInteger (n : Numeral) : Bool := n.fraction.isNone && n.exponent.isNone

def isAscii (n : Numeral) : Bool :=
  n.whole.all Char.isDigit && (n.fraction.getD []).all Char.isDigit &&
    (n.exponent.elim [] Prod.snd).all Char.isDigit

/-- The digits read as one number, and the power of ten that the point and the exponent leave. -/
def decimal (n : Numeral) : Decimal :=
  let fraction := n.fraction.getD []
  let shift : Int := match n.exponent with
    | none => 0
    | some (true, digits) => -(Nat.ofDigitChars 10 digits 0 : Int)
    | some (false, digits) => Nat.ofDigitChars 10 digits 0
  ⟨Nat.ofDigitChars 10 (n.whole ++ fraction) 0, shift - fraction.length⟩

/-- The value of a numeral in ASCII digits without point and exponent. -/
def integer? (n : Numeral) : Option Int :=
  if n.isInteger && n.isAscii then
    let value : Int := Nat.ofDigitChars 10 n.whole 0
    some (if n.negative then -value else value)
  else none

def float? (n : Numeral) : Option Float32 :=
  if n.isAscii then some (Binary32.float n.negative (Binary32.ofDecimal n.decimal)) else none

end Numeral

namespace Binary32

/-- The float that a text spells: a numeral, `inf`, `-inf` or `nan`. -/
def ofText? (s : String) : Option Float32 :=
  match s with
  | "inf" => some (float false infinity)
  | "-inf" => some (float true infinity)
  | "nan" => some notANumber
  | _ => (Numeral.ofChars? s.toList).bind Numeral.float?

end Binary32

end SceneConvert
