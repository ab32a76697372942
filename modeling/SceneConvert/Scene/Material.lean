import SceneConvert.Scene.Color

/-!
# SceneConvert.Scene.Material

Reading materials. A directive names a kind of material; the kinds of older and newer scene files are
both understood.

* `Survey.material`: the material of a kind. A blend names two materials that exist already, and is
  the only kind that can be refused.
* `specularOfIndex`: what the index of refraction means for the principled material.
-/

namespace SceneConvert

def clamp (v low high : Float32) : Float32 := if v < low then low else if high < v then high else v

/-- The share of light that a surface with this index of refraction throws back along its normal. -/
def specularOfIndex (eta : Float32) : Float32 :=
  let one := Binary32.ofInt 1
  let r := (eta - one) / (eta + one)
  clamp (r * r) (Binary32.ofInt 0) one

namespace Channels

def copperEta : Channels :=
  ⟨Binary32.constant 2004 4, Binary32.constant 9240 4, Binary32.constant 11022 4⟩

def copperAbsorption : Channels :=
  ⟨Binary32.constant 39129 4, Binary32.constant 24528 4, Binary32.constant 21421 4⟩

end Channels

namespace Survey

variable {α : Type}

/-- The diffuse color goes by a newer and an older name. -/
def diffuse (s : State α) : Survey Material := do
  let name := if ← has "reflectance" then "reflectance" else "Kd"
  return .diffuse (← reflectance s name (.grey (Binary32.constant 5 1)))

def glass (s : State α) : Survey Material := do
  let specular ← reflectance s "Ks" .unit
  let name := if ← has "index" then "index" else "eta"
  let index ← amount s name (Binary32.constant 155 2)
  if ← has "Kt" then
    return .glass specular index (some (← reflectance s "Kt" .unit))
  else return .glass specular index none

def conductor (s : State α) : Survey Material := do
  let eta ← reflectance s "eta" .copperEta
  let absorption ← reflectance s "k" .copperAbsorption
  let smooth := Binary32.constant 1 2
  if (← has "uroughness") || (← has "vroughness") then
    let u ← amount s "uroughness" smooth
    let v ← amount s "vroughness" smooth
    return .conductor eta absorption (.axes u v)
  else return .conductor eta absorption (.uniform (← amount s "roughness" smooth))

def mirror (s : State α) : Survey Material := do
  return .mirror (← reflectance s "Kr" (.grey (Binary32.constant 9 1)))

/-- The principled material. Its index of refraction cannot be a texture. -/
def principled (s : State α) (name : String) : Survey Material := do
  let zero := Binary32.ofInt 0
  let half := Binary32.constant 5 1
  let usualIndex := Binary32.constant 15 1
  let base ← reflectance s "color" (.grey half)
  if (← texture? "eta").isSome then report (.etaTextured name)
  let eta ← number "eta" usualIndex
  let roughness ← amount s "roughness" half
  let specularTint ← amount s "speculartint" zero
  let metallic ← amount s "metallic" zero
  let clearcoat ← amount s "clearcoat" zero
  let clearcoatGloss ← amount s "clearcoatgloss" (Binary32.ofInt 1)
  let anisotropic ← amount s "anisotropic" zero
  let sheen ← amount s "sheen" zero
  let sheenTint ← amount s "sheentint" half
  return .principled {
    base, roughness, specular := specularOfIndex eta, specularTint, metallic, clearcoat,
    clearcoatGloss, anisotropic, sheen, sheenTint }

/-- The names of the materials that a blend blends. -/
def blended : Survey (List String) := do
  match ← words? "materials" with
  | some names => pure names
  | none =>
    let first ← word "namedmaterial1" ""
    let second ← word "namedmaterial2" ""
    return [first, second]

/-- A name that a blend can use: that of a material there is. -/
def checkMaterial (s : State α) (part name : String) : Survey Unit :=
  if s.hasMaterial part then pure () else refuse (.mixUndeclared part name)

def blend (s : State α) (name : String) : Survey Material := do
  match ← blended with
  | [first, second] =>
    if first.isEmpty || second.isEmpty then refuse (.mixIncomplete name)
    else
      checkMaterial s first name
      checkMaterial s second name
      return .blend first second (← amount s "amount" (Binary32.constant 5 1))
  | _ => refuse (.mixIncomplete name)

def material (s : State α) (name kind : String) : Survey Material :=
  match kind with
  | "matte" | "diffuse" => diffuse s
  | "glass" | "dielectric" => glass s
  | "metal" | "conductor" => conductor s
  | "mirror" => mirror s
  | "disney" => principled s name
  | "mix" => blend s name
  | _ => refuse (.materialUnknown kind name)

end Survey

end SceneConvert
