import SceneConvert.Decimal.Shortest

/-!
# SceneConvert.Statement.Value

The values of a scene text: strings, integers, floats, and lists of values.

A list of one element and the element alone mean the same everywhere. Every accessor therefore looks
at `elements` only, which does not tell them apart.
-/

namespace SceneConvert

inductive Value where
  | text (s : String)
  | integer (i : Int)
  | float (v : Float32)
  | list (vs : List Value)

namespace Value

/-- The elements of a list; any other value is its own single element. -/
def elements : Value → List Value
  | list vs => vs
  | v => [v]

def single? (v : Value) : Option Value :=
  match v.elements with
  | [e] => some e
  | _ => none

def asFloat? : Value → Option Float32
  | integer i => some (Binary32.ofInt i)
  | float v => some v
  | _ => none

def asInteger? : Value → Option Int
  | integer i => some i
  | _ => none

def asText? : Value → Option String
  | text s => some s
  | _ => none

def floats? (v : Value) : Option (List Float32) := v.elements.mapM asFloat?

def integers? (v : Value) : Option (List Int) := v.elements.mapM asInteger?

def texts? (v : Value) : Option (List String) := v.elements.mapM asText?

/-- What a truth value is spelled as: a word, or an integer other than zero. -/
def asTruth? : Value → Option Bool
  | text "true" => some true
  | text "false" => some false
  | integer i => some (i != 0)
  | _ => none

def number? (v : Value) : Option Float32 := v.single?.bind asFloat?

def integer? (v : Value) : Option Int := v.single?.bind asInteger?

def word? (v : Value) : Option String := v.single?.bind asText?

def truth? (v : Value) : Option Bool := v.single?.bind asTruth?

def length (v : Value) : Nat := v.elements.length

def display : Value → String
  | text s => "\"" ++ s ++ "\""
  | integer i => toString i
  | float v => Binary32.text v
  | list vs => "[" ++ displayAll vs ++ " ]"
where
  /-- The spelling of list elements, a blank before each. -/
  displayAll : List Value → String
    | [] => ""
    | v :: vs => " " ++ v.display ++ displayAll vs

end Value

end SceneConvert
