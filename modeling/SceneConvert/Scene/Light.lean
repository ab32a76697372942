import SceneConvert.Conversion.Options
import SceneConvert.Scene.Color

/-!
# SceneConvert.Scene.Light

Reading lights. Positions and directions are taken through the current transform.

* `Survey.light`: the light of a kind, with the image it needs.
* `Survey.areaLight`: the radiance of the surfaces that follow.
-/

namespace SceneConvert

/-- A light, and the file of the image that an environment light shows. -/
structure LightSource (α : Type) where
  light : Light α
  map : Option Path

/-- The name of the image behind the environment light of a name. -/
def mapName (light : String) : String := light ++ "_map"

namespace Survey

variable {α : Type} [Scalar α]

def point (name : String) (bad : Problem) (default : Vec3 α) : Survey (Vec3 α) := do
  match ← numbers? name with
  | some [x, y, z] => pure (.ofFloats x y z)
  | some _ => refuse bad
  | none => pure default

def pointLight (s : State α) : Survey (LightSource α) := do
  let source ← point "from" .pointLightFrom ⟨0, 0, 0⟩
  let intensity ← illuminant s "I"
  return ⟨.point (s.graphics.transform.point source) intensity, none⟩

/-- A light from a direction; two different points give one. -/
def distantLight (s : State α) : Survey (LightSource α) := do
  let source ← point "from" (.distantLightPoint "from") ⟨0, 0, 0⟩
  let target ← point "to" (.distantLightPoint "to") ⟨0, 0, 1⟩
  let direction := s.graphics.transform.vector (target.sub source)
  if direction.norm == 0 then refuse .distantLightDirection
  else
    let irradiance ← illuminant s "L"
    return ⟨.distant direction.normalize irradiance, none⟩

/-- A light from all around, of a color or of an image. -/
def environmentLight (ctx : Context) (s : State α) (source : Path) : Survey (LightSource α) := do
  let placement :=
    if s.graphics.transform.isIdentity then none else some s.graphics.transform
  let factor ← scale "scale"
  let filename ← word "mapname" ""
  if filename.isEmpty then
    let radiance ← color s ⟨"L", .illuminant, .unit, factor⟩
    return ⟨.environment radiance placement, none⟩
  else
    let name := s.counters.next .light
    if ← has "L" then remark (.mapPreferred name)
    let file := ctx.files.fileFor source filename ctx.includeRoot
    return ⟨.environment (.texture (mapName name)) placement, some file⟩

/-- The light of a kind; `source` is the file that declares it. -/
def light (ctx : Context) (s : State α) (source : Path) (kind : String) :
    Survey (LightSource α) :=
  match kind with
  | "point" => pointLight s
  | "distant" => distantLight s
  | "infinite" => environmentLight ctx s source
  | _ => refuse (.lightUnknown kind)

def areaLight (s : State α) (kind : String) : Survey Color :=
  match kind with
  | "diffuse" | "area" => illuminant s "L"
  | _ => refuse (.areaLightUnknown kind)

end Survey

end SceneConvert
