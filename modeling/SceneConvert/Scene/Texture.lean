import SceneConvert.Conversion.Options
import SceneConvert.Scene.Color

/-!
# SceneConvert.Scene.Texture

Reading textures. A texture directive gives a name, a class and a kind; the class decides whether
inputs are numbers or colors.

* `Survey.textureClass`: class and kind, from the first parameter without a tag.
* `Survey.texture`: the fragments that make the texture of a name.
-/

namespace SceneConvert

namespace TextureClass

def ofWord? : String → Option TextureClass
  | "float" => some number
  | "spectrum" | "color" | "rgb" => some color
  | _ => none

end TextureClass

namespace Wrap

def ofWord? : String → Option Wrap
  | "repeat" => some periodic
  | "black" => some black
  | "clamp" => some clamp
  | _ => none

end Wrap

namespace Survey

variable {α : Type}

/-- The class and the kind of a texture: the name and the value of the first parameter without a
tag. -/
def textureClass (name : String) : Survey (TextureClass × String) := do
  match ← parameters Parameters.untagged with
  | none => refuse (.textureKindMissing name)
  | some p =>
    let kind ← require (.textureKindMissing name) p.value.word?
    let class_ ← require (.textureClassUnknown p.name name) (TextureClass.ofWord? p.name)
    return (class_, kind)

def input (s : State α) (class_ : TextureClass) (name : String) (default : Int) :
    Survey NodeInput := do
  let default := Binary32.ofInt default
  match class_ with
  | .number => return .amount (← amount s name default)
  | .color => return .color (← reflectance s name (.grey default))

def productKind : TextureClass → NodeKind
  | .number => .product
  | .color => .colorProduct

def constantNode (s : State α) (class_ : TextureClass) : Survey Node.Spec := do
  return ⟨.constant, [← input s class_ "value" 1]⟩

/-- The factors go by newer and older names. -/
def productNode (s : State α) (class_ : TextureClass) : Survey Node.Spec := do
  let newer := (← has "tex") || (← has "scale")
  let first ← input s class_ (if newer then "tex" else "tex1") 1
  let second ← input s class_ (if newer then "scale" else "tex2") 1
  return ⟨productKind class_, [first, second]⟩

def blendNode (s : State α) (class_ : TextureClass) : Survey Node.Spec := do
  let first ← input s class_ "tex1" 0
  let second ← input s class_ "tex2" 1
  let factor ← amount s "amount" (Binary32.constant 5 1)
  let kind := match class_ with
    | .number => NodeKind.blend
    | .color => NodeKind.colorBlend
  return ⟨kind, [.amount factor, first, second]⟩

/-- Only the checkerboard of two dimensions is known; the number of squares is optional. -/
def checkerboardNode (s : State α) (class_ : TextureClass) : Survey Node.Spec := do
  let dimension ← integer "dimension" 2
  if dimension != 2 then refuse (.checkerboardDimension dimension)
  else
    let first ← input s class_ "tex1" 1
    let second ← input s class_ "tex2" 0
    if (← has "uscale") || (← has "vscale") then
      let u ← amount s "uscale" (Binary32.ofInt 1)
      let v ← amount s "vscale" (Binary32.ofInt 1)
      return ⟨.checkerboard, [first, second, .amount u, .amount v]⟩
    else return ⟨.checkerboard, [first, second]⟩

/-- The wrap mode that a word names; an unknown word is as good as none. -/
def wrap : Survey Wrap := do
  let word ← word "wrap" "repeat"
  match Wrap.ofWord? word with
  | some w => pure w
  | none =>
    remark (.wrapUnknown word)
    pure .periodic

/-- An image, and a factor unless it is one. Images of some formats have a gamma unless they say
otherwise. -/
def image (ctx : Context) (source : Path) (class_ : TextureClass) (name : String) :
    Survey (ImageTexture × Option Float32) := do
  let filename ← word "filename" ""
  if filename.isEmpty then refuse (.imageUnnamed name)
  else
    let file := ctx.files.fileFor source filename ctx.includeRoot
    if !ctx.files.isFile file then remark (.imageMissing file name)
    let wrap ← wrap
    let factor ← number "scale" (Binary32.ofInt 1)
    let gamma ← truth "gamma" (file.hasExtension "tga" || file.hasExtension "png")
    let factor := if factor == Binary32.ofInt 1 then none else some factor
    return (⟨class_, file, wrap, gamma⟩, factor)

/-- The fragments of an image texture. With a factor, the image has a name of its own, and the
texture is a product. -/
def imageFragments (class_ : TextureClass) (name : String) (image : ImageTexture) :
    Option Float32 → List (Fragment α)
  | none => [.image name image]
  | some factor =>
    let unscaled := name ++ "-tex"
    [.image unscaled image,
     .node name ⟨productKind class_, [.amount (.number factor), .texture unscaled]⟩]

/-- The fragments of the texture of a name; `source` is the file that declares it. -/
def texture (ctx : Context) (s : State α) (source : Path) (name : String) :
    Survey (List (Fragment α)) := do
  let (class_, kind) ← textureClass name
  let node (spec : Survey Node.Spec) : Survey (List (Fragment α)) := do
    return [.node name (← spec)]
  match kind with
  | "constant" => node (constantNode s class_)
  | "scale" => node (productNode s class_)
  | "mix" => node (blendNode s class_)
  | "imagemap" =>
    let (image, factor) ← image ctx source class_ name
    return imageFragments class_ name image factor
  | "checkerboard" => node (checkerboardNode s class_)
  | _ => refuse (.textureUnknown kind name)

end Survey

end SceneConvert
