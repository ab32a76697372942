import SceneConvert.Scene.Survey

/-!
# SceneConvert.Scene.Color

Reading colors and numbers that a texture may stand in for.

* `Survey.color`: the color of a parameter. Its tag says how the values are meant; where they cannot
  be read that way the problem is reported and a default is used.
* `Survey.amount`: the number of a parameter, a list standing for its average.
* `Survey.scale`: a factor for the channels of a color.
-/

namespace SceneConvert

/-- What the tag of a color parameter says about its values. -/
inductive ColorForm where
  | texture
  /-- One value for all channels, or three. -/
  | channels
  /-- The same, in the color space XYZ. -/
  | xyz
  | blackbody
  /-- Wavelengths and values in turn. -/
  | sampled
  | unsuitable
  deriving Repr, DecidableEq

namespace ColorForm

def ofTag (tag : String) : ColorForm :=
  if tag == "texture" then texture
  else if tag == "rgb" || tag == "color" || tag == "float" || tag == "" then channels
  else if tag == "xyz" then xyz
  else if tag == "blackbody" then blackbody
  else if tag == "spectrum" then sampled
  else unsuitable

def isScalable (f : ColorForm) : Bool := f == channels || f == xyz

end ColorForm

namespace Channels

def unit : Channels := grey (Binary32.ofInt 1)

def isUnit (c : Channels) : Bool :=
  let one := Binary32.ofInt 1
  c.r == one && c.g == one && c.b == one

def ofXyz (c : Channels) : Channels :=
  let k := Binary32.constant
  { r := k 3240479 6 * c.r - k 1537150 6 * c.g - k 498535 6 * c.b
    g := k (-969256) 6 * c.r + k 1875991 6 * c.g + k 41556 6 * c.b
    b := k 55648 6 * c.r - k 204043 6 * c.g + k 1057311 6 * c.b }

end Channels

def everySecond {β : Type} : List β → List β
  | a :: _ :: rest => a :: everySecond rest
  | rest => rest

/-- How a color is to be read. -/
structure ColorUse where
  parameter : String
  kind : ColorKind
  default : Channels
  scale : Channels

namespace ColorUse

def fallback (use : ColorUse) : Color := .channels use.kind (use.default * use.scale)

end ColorUse

namespace Survey

variable {α : Type}

/-- The first color among flat values: one value is a grey, three are a color. -/
def firstColor? : List Float32 → Survey (Option Channels)
  | [v] => pure (some (.grey v))
  | [r, g, b] => pure (some ⟨r, g, b⟩)
  | r :: g :: b :: rest => do
    remark (.colorsDropped ((rest.length + 3) / 3))
    pure (some ⟨r, g, b⟩)
  | _ => pure none

/-- The first color that the values of a parameter make. -/
def channels? (p : Parameter) : Survey (Option Channels) :=
  match p.value.floats? with
  | some values => firstColor? values
  | none => pure none

/-- A factor given as one number or a color; without a usable one it is one. -/
def scale (name : String) : Survey Channels := do
  match ← numbers? name with
  | some values => return (← firstColor? values).getD .unit
  | none => pure .unit

/-- Reports a texture that no directive has declared. -/
def checkTexture (s : State α) (name : String) : Survey Unit :=
  if s.hasTexture name then pure () else report (.textureUndeclared name)

def textureColor (s : State α) (name : String) : Survey Color := do
  checkTexture s name
  pure (.texture name)

/-- The color that a parameter gives, or why it gives none. -/
def readColor (s : State α) (use : ColorUse) (p : Parameter) : Survey (Except Problem Color) := do
  let tag := p.tag.getD ""
  let form := ColorForm.ofTag tag
  let invalid : Except Problem Color := .error (.colorInvalid p.name tag)
  if !use.scale.isUnit && !form.isScalable then remark (.scaleIgnored tag p.name)
  match form with
  | .texture =>
    match p.value.word? with
    | some name => return .ok (← textureColor s name)
    | none => return invalid
  | .channels =>
    match p.value.word? with
    | some name =>
      if !use.scale.isUnit then remark (.textureScaleIgnored p.name)
      return .ok (← textureColor s name)
    | none =>
      match ← channels? p with
      | some c => return .ok (.channels use.kind (c * use.scale))
      | none => return invalid
  | .xyz =>
    match ← channels? p with
    | some c => return .ok (.channels use.kind (c.ofXyz * use.scale))
    | none => return invalid
  | .blackbody =>
    match p.value.floats? with
    | some (kelvin :: _) => return .ok (.blackbody kelvin)
    | _ => return invalid
  | .sampled =>
    match p.value.word?, p.value.floats? with
    | some name, _ => return .error (.spectrumNamed name p.name)
    | none, some values =>
      if 2 ≤ values.length && values.length % 2 = 0 then
        return .ok (.spectrum (← spectrum (everySecond values) (everySecond values.tail)))
      else return invalid
    | none, none => return invalid
  | .unsuitable => return .error (.colorUnsuitable p.name tag)

/-- The color of a parameter, or the default where it is missing or cannot be read. -/
def color (s : State α) (use : ColorUse) : Survey Color := do
  match ← parameter? use.parameter with
  | none => pure use.fallback
  | some p =>
    match ← readColor s use p with
    | .ok c => pure c
    | .error problem =>
      report problem
      pure use.fallback

def reflectance (s : State α) (name : String) (default : Channels) : Survey Color :=
  color s ⟨name, .reflectance, default, .unit⟩

/-- The color of a light, white by default, times the scale that the parameter `scale` gives. -/
def illuminant (s : State α) (name : String) : Survey Color := do
  let factor ← scale "scale"
  color s ⟨name, .illuminant, .unit, factor⟩

def average (values : List Float32) : Float32 :=
  values.foldl (· + ·) (Float32.ofBits 0x80000000) / Binary32.ofInt values.length

/-- The number of a parameter, or a texture in its place. -/
def amount (s : State α) (name : String) (default : Float32) : Survey Amount := do
  match ← parameter? name with
  | none => pure (.number default)
  | some p =>
    match p.value.word?, p.value.floats? with
    | some texture, _ =>
      checkTexture s texture
      pure (.texture texture)
    | none, some [v] => pure (.number v)
    | none, some (v :: values) =>
      remark (.valuesAveraged (values.length + 1) name)
      pure (.number (average (v :: values)))
    | none, _ =>
      report (.numberUnusable name)
      pure (.number default)

end Survey

end SceneConvert
