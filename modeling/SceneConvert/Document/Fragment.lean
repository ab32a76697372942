import SceneConvert.Geometry.Transform
import SceneConvert.Mesh.Triangle
import SceneConvert.Path.Basic

/-!
# SceneConvert.Document.Fragment

What an output file consists of: entries, most of which are fragments that define one named thing of
the scene each.

* `Color`, `Amount`: what a color or a number of a fragment can be.
* `Material`, `Node`, `ImageTexture`, `Light`, `MeshSource`, `Placed`, `Camera`: the things.
* `Fragment`: a thing under its name. `Fragment.name` and `Fragment.family` tell fragments apart,
  `Fragment.references` says what it needs.
* `Entry`: one item of a file.
-/

namespace SceneConvert

structure Channels where
  r : Float32
  g : Float32
  b : Float32

namespace Channels

def grey (v : Float32) : Channels := ⟨v, v, v⟩

def mul (a b : Channels) : Channels := ⟨a.r * b.r, a.g * b.g, a.b * b.b⟩

instance : Mul Channels := ⟨mul⟩

def toList (c : Channels) : List Float32 := [c.r, c.g, c.b]

end Channels

/-- Whether channels describe a surface or a source of light. -/
inductive ColorKind where
  | reflectance
  | illuminant
  deriving Repr, DecidableEq

inductive Color where
  | channels (kind : ColorKind) (c : Channels)
  | texture (name : String)
  | blackbody (kelvin : Float32)
  | spectrum (name : String)

inductive Amount where
  | number (v : Float32)
  | texture (name : String)

/-- The roughness of a surface, in all directions or along its two axes. -/
inductive Roughness where
  | uniform (a : Amount)
  | axes (u v : Amount)

structure Principled where
  base : Color
  roughness : Amount
  specular : Float32
  specularTint : Amount
  metallic : Amount
  clearcoat : Amount
  clearcoatGloss : Amount
  anisotropic : Amount
  sheen : Amount
  sheenTint : Amount

inductive Material where
  | diffuse (albedo : Color)
  | glass (specular : Color) (index : Amount) (transmission : Option Color)
  | conductor (eta absorption : Color) (roughness : Roughness)
  | mirror (specular : Color)
  | principled (inputs : Principled)
  /-- A blend of two other materials. -/
  | blend (first second : String) (factor : Amount)

/-- What a texture node computes; the kinds for numbers and colors have different names. -/
inductive NodeKind where
  | constant
  | product
  | colorProduct
  | blend
  | colorBlend
  | checkerboard
  deriving Repr, DecidableEq

inductive NodeInput where
  | color (c : Color)
  | amount (a : Amount)
  /-- The bare name of a texture. -/
  | texture (name : String)

structure Node.Spec where
  kind : NodeKind
  inputs : List NodeInput

/-- Whether a texture gives numbers or colors. -/
inductive TextureClass where
  | number
  | color
  deriving Repr, DecidableEq

/-- How an image goes on outside its borders. -/
inductive Wrap where
  | periodic
  | black
  | clamp
  deriving Repr, DecidableEq

structure ImageTexture where
  class_ : TextureClass
  file : Path
  wrap : Wrap
  /-- Whether the image is stored with the gamma of sRGB. -/
  gamma : Bool

inductive Light (α : Type) where
  | point (position : Vec3 α) (intensity : Color)
  | distant (direction : Vec3 α) (irradiance : Color)
  /-- Light from all around; no placement stands for the identity. -/
  | environment (radiance : Color) (placement : Option (Transform α))

/-- Where the triangles of a mesh are. -/
inductive MeshSource where
  | inline (m : TriangleMesh)
  /-- In a file of the output. -/
  | separate (file : Path)
  /-- In a file that was there before. -/
  | existing (file : Path)

inductive Shape where
  | sphere (radius : Float32)
  | mesh (name : String)

structure Binding (α : Type) where
  material : Option String
  emission : Option String
  flipped : Bool
  transform : Transform α

structure Placed (α : Type) where
  shape : Shape
  binding : Binding α

namespace Placed

def at_ {α : Type} (p : Placed α) (t : Transform α) : Placed α :=
  { p with binding := { p.binding with transform := t } }

end Placed

/-- A camera of the scene. The aspect of the film is not known yet when it is met. -/
structure Camera (α : Type) where
  cameraToWorld : Transform α
  /-- The field of view along the shorter axis, in degrees. -/
  fieldOfView : Float32
  /-- Width over height, where the camera itself says it. -/
  frameAspect : Option Float32
  lensRadius : Option Float32
  focalDistance : Option Float32

/-- The families of names: two fragments are in each other's way only within one family. -/
inductive Family where
  | material
  | texture
  | spectrum
  | emission
  | light
  | mesh
  | entity
  | camera
  deriving Repr, DecidableEq

inductive Fragment (α : Type) where
  | spectrum (name : String) (wavelengths values : List Float32)
  | image (name : String) (t : ImageTexture)
  /-- The image behind an environment light. -/
  | map (name : String) (file : Path)
  | node (name : String) (n : Node.Spec)
  | material (name : String) (m : Material)
  | emission (name : String) (radiance : Color)
  | light (name : String) (l : Light α)
  | mesh (name : String) (source : MeshSource)
  | entity (name : String) (p : Placed α)
  | camera (c : Camera α) (aspect : Float32)

abbrev Reference := Family × String

namespace Color

def references : Color → List Reference
  | texture name => [(.texture, name)]
  | spectrum name => [(.spectrum, name)]
  | _ => []

end Color

namespace Amount

def references : Amount → List Reference
  | texture name => [(.texture, name)]
  | number _ => []

end Amount

namespace Material

/-- What a material needs, in the order in which it is written. -/
def references : Material → List Reference
  | diffuse albedo => albedo.references
  | glass specular index transmission =>
    specular.references ++ index.references ++ (transmission.elim [] Color.references)
  | conductor eta absorption (.uniform a) =>
    eta.references ++ absorption.references ++ a.references
  | conductor eta absorption (.axes u v) =>
    eta.references ++ absorption.references ++ u.references ++ v.references
  | mirror specular => specular.references
  | principled p =>
    p.base.references ++ [p.roughness, p.specularTint, p.metallic, p.clearcoat, p.clearcoatGloss,
      p.anisotropic, p.sheen, p.sheenTint].flatMap Amount.references
  | blend first second factor =>
    (.material, first) :: (.material, second) :: factor.references

end Material

namespace NodeInput

def references : NodeInput → List Reference
  | color c => c.references
  | amount a => a.references
  | texture name => [(.texture, name)]

end NodeInput

namespace Fragment

variable {α : Type}

def name : Fragment α → String
  | spectrum name .. | image name _ | map name _ | node name _ | material name _ | emission name _
  | light name _ | mesh name _ | entity name _ => name
  | camera .. => "Camera"

def family : Fragment α → Family
  | spectrum .. => .spectrum
  | image .. | map .. | node .. => .texture
  | material .. => .material
  | emission .. => .emission
  | light .. => .light
  | mesh .. => .mesh
  | entity .. => .entity
  | camera .. => .camera

/-- What a fragment defines. -/
def reference (f : Fragment α) : Reference := (f.family, f.name)

/-- What a fragment needs. -/
def references : Fragment α → List Reference
  | node _ n => n.inputs.flatMap NodeInput.references
  | material _ m => m.references
  | emission _ radiance => radiance.references
  | light _ (.point _ c) | light _ (.distant _ c) | light _ (.environment c _) => c.references
  | entity _ p =>
    (match p.shape with
      | .sphere _ => []
      | .mesh name => [(.mesh, name)]) ++
    p.binding.material.toList.map (.material, ·) ++ p.binding.emission.toList.map (.emission, ·)
  | spectrum .. | image .. | map .. | mesh .. | camera .. => []

end Fragment

inductive SettingKey where
  | filmWidth
  | filmHeight
  | sampleCount
  | rayDepth
  deriving Repr, DecidableEq

/-- One item of an output file. -/
inductive Entry (α : Type) where
  | setting (key : SettingKey) (value : Int)
  | include_ (file : Path)
  | activeCamera
  | fragment (f : Fragment α)

/-- Whether an entry has lines that stand deeper than its first one. -/
def Entry.hasBody {α : Type} : Entry α → Bool
  | fragment _ => true
  | setting .. | include_ _ | activeCamera => false

end SceneConvert
