import SceneConvert.Decimal.Shortest
import SceneConvert.Document.Block
import SceneConvert.Document.Fragment

/-!
# SceneConvert.Document.Render

The text of entries. Every fragment is one form whose body holds one line for each of its properties.

* `Color.text`, `Amount.text`: values inside a line.
* `Camera.filmSize`: the image plane of a camera.
* `Fragment.block`, `Entry.block`: the forms.
* `fileLines`, `fileText`: the lines and the text of a whole file.
-/

namespace SceneConvert

def singleQuoted (s : String) : String := "'" ++ s ++ "'"

def textureText (name : String) : String := "(texture " ++ singleQuoted name ++ ")"

namespace Channels

def text (kind : ColorKind) (c : Channels) : String :=
  let word := match kind with
    | .reflectance => "refl"
    | .illuminant => "illum"
  "(" ++ String.intercalate " " (word :: c.toList.map Binary32.literal) ++ ")"

end Channels

def Color.text : Color → String
  | channels kind c => c.text kind
  | texture name => textureText name
  | blackbody kelvin => "(blackbody " ++ Binary32.literal kelvin ++ ")"
  | spectrum name => singleQuoted name

def Amount.text : Amount → String
  | number v => Binary32.literal v
  | texture name => textureText name

def NodeInput.text : NodeInput → String
  | color c => c.text
  | amount a => a.text
  | texture name => singleQuoted name

def NodeKind.word : NodeKind → String
  | constant => "constant"
  | product => "mul"
  | colorProduct => "smul"
  | blend => "blend"
  | colorBlend => "sblend"
  | checkerboard => "checkerboard"

def TextureClass.word : TextureClass → String
  | number => "grayscale"
  | color => "color"

def Wrap.word : Wrap → String
  | periodic => "periodic"
  | black => "black"
  | clamp => "clamp"

def SettingKey.word : SettingKey → String
  | filmWidth => "/renderer/film/width"
  | filmHeight => "/renderer/film/height"
  | sampleCount => "/renderer/common/sampler/aa/count"
  | rayDepth => "/renderer/common/max_ray_depth"

def propertyLine (key value : String) : Block := .line (":" ++ key ++ " " ++ value)

/-- A property line with a quoted value. -/
def wordLine (key value : String) : Block := propertyLine key (singleQuoted value)

def vectorText (v : Vec3 Float32) : String := Binary32.literalList v.toList

def transformLine (t : Transform Float32) : Block :=
  propertyLine "transform" (Binary32.literalList t.rowMajor)

namespace Material

def word : Material → String
  | diffuse _ => "diffuse"
  | glass .. => "glass"
  | conductor .. => "conductor"
  | mirror _ => "mirror"
  | principled _ => "principled"
  | blend .. => "blend"

def properties : Material → List (String × String)
  | diffuse albedo => [("albedo", albedo.text)]
  | glass specular index transmission =>
    [("specular", specular.text), ("index", index.text)] ++
      transmission.toList.map fun c => ("transmission", c.text)
  | conductor eta absorption roughness =>
    [("eta", eta.text), ("k", absorption.text)] ++
      match roughness with
      | .uniform a => [("roughness", a.text)]
      | .axes u v => [("roughness_x", u.text), ("roughness_y", v.text)]
  | mirror specular => [("specular", specular.text)]
  | principled p =>
    [("base", p.base.text), ("roughness", p.roughness.text),
     ("specular", Binary32.literal p.specular), ("specular_tint", p.specularTint.text),
     ("metallic", p.metallic.text), ("clearcoat", p.clearcoat.text),
     ("clearcoat_gloss", p.clearcoatGloss.text), ("anisotropic", p.anisotropic.text),
     ("sheen", p.sheen.text), ("sheen_tint", p.sheenTint.text)]
  | blend first second factor =>
    [("material1", singleQuoted first), ("material2", singleQuoted second),
     ("factor", factor.text)]

end Material

namespace Light

def word : Light Float32 → String
  | point .. => "point"
  | distant .. => "distant"
  | environment .. => "env"

def lines : Light Float32 → List Block
  | point position intensity =>
    [propertyLine "position" (vectorText position), propertyLine "intensity" intensity.text]
  | distant direction irradiance =>
    [propertyLine "direction" (vectorText direction), propertyLine "irradiance" irradiance.text]
  | environment radiance placement =>
    propertyLine "radiance" radiance.text :: placement.toList.map transformLine

end Light

namespace MeshSource

def groupsText {β : Type} (text : List β → String) (groups : List (List β)) : String :=
  String.intercalate ", " (groups.map text)

def attributeLine (key : String) (groups : List (List Float32)) : Block :=
  .line ("(attribute " ++ singleQuoted key ++ " " ++ groupsText Binary32.literalList groups ++ ")")

def lines : MeshSource → List Block
  | inline m =>
    [attributeLine "p" (triples m.positions)] ++
      m.normals.toList.map (fun n => attributeLine "n" (triples n)) ++
      m.uvs.toList.map (fun uv => attributeLine "uv" (pairs uv)) ++
      [.line ("(faces " ++ groupsText integerList (triples m.indices) ++ ")")]
  | separate file | existing file => [wordLine "type" "ply", wordLine "file" file.text]

end MeshSource

namespace Placed

def lines (p : Placed Float32) : List Block :=
  (match p.shape with
    | .sphere radius => [wordLine "type" "sphere", propertyLine "radius" (Binary32.literal radius)]
    | .mesh name => [wordLine "type" "mesh", wordLine "mesh" name]) ++
  p.binding.material.toList.map (wordLine "material") ++
  p.binding.emission.toList.map (wordLine "emission") ++
  (if p.binding.flipped then [propertyLine "flip_normals" "true"] else []) ++
  [transformLine p.binding.transform]

end Placed

def radians (degrees : Float32) : Float32 := radiansPerDegree * degrees

/-- Width and height of the image plane at distance one. The field of view spans the shorter axis. -/
def filmSize (fieldOfView aspect : Float32) : Float32 × Float32 :=
  let one := Binary32.ofInt 1
  let two := Binary32.ofInt 2
  let short := two * (radians fieldOfView / two).tan
  if one ≤ aspect then (short * aspect, short) else (short, short / aspect)

namespace Camera

def lines (c : Camera Float32) (aspect : Float32) : List Block :=
  let (width, height) := filmSize c.fieldOfView aspect
  [wordLine "type" "standard", propertyLine "width" (Binary32.literal width),
   propertyLine "height" (Binary32.literal height)] ++
  c.lensRadius.toList.map (fun r => propertyLine "aperture_radius" (Binary32.literal r)) ++
  c.focalDistance.toList.map (fun d => propertyLine "focal_length" (Binary32.literal d)) ++
  [transformLine c.cameraToWorld]

end Camera

namespace Fragment

def word : Fragment Float32 → String
  | spectrum .. => "spectrum"
  | image .. | map .. => "texture"
  | node .. => "node"
  | material .. => "material"
  | emission .. => "emission"
  | light .. => "light"
  | mesh .. => "mesh"
  | entity .. => "entity"
  | camera .. => "camera"

def lines : Fragment Float32 → List Block
  | spectrum _ wavelengths values =>
    [propertyLine "data" ("(field :wavelengths " ++ Binary32.literalList wavelengths ++
      " :values " ++ Binary32.literalList values ++ ")")]
  | image _ t =>
    [wordLine "type" t.class_.word, wordLine "file" t.file.text, wordLine "wrap" t.wrap.word] ++
      if t.gamma then [wordLine "gamma" "srgb"] else []
  | map _ file => [wordLine "type" "color", wordLine "file" file.text, wordLine "wrap" "periodic"]
  | node _ n => wordLine "type" n.kind.word :: n.inputs.map fun i => .line i.text
  | material _ m =>
    wordLine "type" m.word :: m.properties.map fun (key, value) => propertyLine key value
  | emission _ radiance => [wordLine "type" "diffuse", propertyLine "radiance" radiance.text]
  | light _ l => wordLine "type" l.word :: l.lines
  | mesh _ source => source.lines
  | entity _ p => p.lines
  | camera c aspect => c.lines aspect

/-- The form of a fragment: its name and its other lines. -/
def block (f : Fragment Float32) : Block := .form f.word (wordLine "name" f.name :: f.lines)

end Fragment

namespace Entry

def block : Entry Float32 → Block
  | setting key value => .line ("(registry " ++ singleQuoted key.word ++ " " ++ toString value ++ ")")
  | include_ file => .line ("(include " ++ singleQuoted file.text ++ ")")
  | activeCamera => wordLine "camera" "Camera"
  | fragment f => f.block

end Entry

def entryLines (depth : Nat) (entries : List (Entry Float32)) : List Line :=
  Block.lines.linesOf depth (entries.map Entry.block)

/-- The lines of a file: its entries, `wrapped` saying whether the form of a scene encloses them. -/
def fileLines (wrapped : Bool) (entries : List (Entry Float32)) : List Line :=
  let blocks := entries.map Entry.block
  Block.lines.linesOf 0 (if wrapped then [.form "scene" blocks] else blocks)

def fileText (indent : Indent) (wrapped : Bool) (entries : List (Entry Float32)) : String :=
  renderLines indent (fileLines wrapped entries)

end SceneConvert
