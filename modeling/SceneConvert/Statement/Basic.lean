import SceneConvert.Statement.Parameters

/-!
# SceneConvert.Statement.Basic

A directive of a scene with its operand and parameters, and the directives that there are.
-/

namespace SceneConvert

/-- One directive as it stands in a scene text. -/
structure Statement where
  line : Nat
  /-- The word that names the directive. -/
  word : String
  operand : Option Value
  parameters : Parameters

namespace Statement

def display (st : Statement) : String :=
  let operand := match st.operand with
    | some v => " " ++ v.display
    | none => ""
  st.word ++ operand ++ st.parameters.display

end Statement

/-- What a directive asks for. -/
inductive Action where
  | identity
  | translate
  | rotate
  | scale
  | lookAt
  | transform
  | concatTransform
  | coordinateSystem
  | coordSysTransform
  | camera
  | film
  | sampler
  | integrator
  | worldBegin
  | worldEnd
  | attributeBegin
  | attributeEnd
  | transformBegin
  | transformEnd
  | objectBegin
  | objectEnd
  | objectInstance
  | material
  | makeNamedMaterial
  | namedMaterial
  | texture
  | lightSource
  | areaLightSource
  | shape
  | reverseOrientation
  | include_
  /-- Understood, but without a counterpart in the output. -/
  | unsupported
  /-- A render setting that the output leaves open. -/
  | ignored
  | unknown
  deriving Repr, DecidableEq

namespace Action

/-- All directives by their words; any other word names an unknown one. -/
def words : List (String × Action) :=
  [("Identity", identity), ("Translate", translate), ("Rotate", rotate), ("Scale", scale),
   ("LookAt", lookAt), ("Transform", transform), ("ConcatTransform", concatTransform),
   ("CoordinateSystem", coordinateSystem), ("CoordSysTransform", coordSysTransform),
   ("Camera", camera), ("Film", film), ("Sampler", sampler), ("Integrator", integrator),
   ("WorldBegin", worldBegin), ("WorldEnd", worldEnd), ("AttributeBegin", attributeBegin),
   ("AttributeEnd", attributeEnd), ("TransformBegin", transformBegin),
   ("TransformEnd", transformEnd), ("ObjectBegin", objectBegin), ("ObjectEnd", objectEnd),
   ("ObjectInstance", objectInstance), ("Material", material),
   ("MakeNamedMaterial", makeNamedMaterial), ("NamedMaterial", namedMaterial),
   ("Texture", texture), ("LightSource", lightSource), ("AreaLightSource", areaLightSource),
   ("Shape", shape), ("ReverseOrientation", reverseOrientation), ("Include", include_),
   ("Import", include_), ("MakeNamedMedium", unsupported), ("MediumInterface", unsupported),
   ("PixelFilter", ignored), ("Accelerator", ignored), ("TransformTimes", ignored),
   ("ActiveTransform", ignored), ("ColorSpace", ignored), ("Option", ignored)]

def ofWord (word : String) : Action := (words.lookup word).getD unknown

end Action

end SceneConvert
