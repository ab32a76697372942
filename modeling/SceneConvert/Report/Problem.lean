import SceneConvert.Decimal.Shortest
import SceneConvert.Files.Tree
import SceneConvert.Mesh.PlyHeader
import SceneConvert.Report.Diagnostic

/-!
# SceneConvert.Report.Problem

Everything that can be wrong with a scene. A `Problem` is the cause; its kind and its wording are
functions of it.
-/

namespace SceneConvert

inductive Problem where
  -- reading the text
  | unterminatedString
  | danglingEscape
  | unknownEscape (c : Char)
  | strayToken (token : String)
  | bracketExpected (token : String)
  | bracketUnclosed
  | valueMissing (key : String)
  -- operands
  | directiveUnknown (word : String)
  | directiveUnsupported (word : String)
  | numbersExpected (word : String) (count : Nat)
  | numberCount (word : String) (count given : Nat)
  | textExpected (word : String)
  -- transforms and scopes
  | axisZero
  | scaleZero
  | upParallel
  | transformSingular
  | concatSingular
  | coordinateSystemUnknown (name : String)
  | scopeUnmatched (word : String)
  -- camera and film
  | cameraUnknown (kind : String)
  | fieldOfView (degrees : Float32)
  | filmResolution (width height : Int)
  -- objects
  | objectOpen (name : String)
  | objectNested
  | objectEndStray
  | instanceInObject
  | objectUnknown (name : String)
  -- colors and numbers
  | textureUndeclared (name : String)
  | colorInvalid (parameter tag : String)
  | colorUnsuitable (parameter tag : String)
  | spectrumNamed (spectrum parameter : String)
  | numberUnusable (parameter : String)
  -- materials
  | materialUnknown (kind name : String)
  | materialKindMissing (name : String)
  | materialUndeclared (name : String)
  | mixIncomplete (name : String)
  | mixUndeclared (part name : String)
  | etaTextured (name : String)
  -- textures
  | textureKindMissing (name : String)
  | textureClassUnknown (word name : String)
  | textureUnknown (kind name : String)
  | imageUnnamed (name : String)
  | checkerboardDimension (dimension : Int)
  -- lights
  | lightUnknown (kind : String)
  | areaLightUnknown (kind : String)
  | pointLightFrom
  | distantLightPoint (parameter : String)
  | distantLightDirection
  -- shapes
  | shapeUnknown (kind : String)
  | sphereRadius (radius : Float32)
  | spherePartial
  | positionsMissing
  | positionCount (count : Nat)
  | indicesMissing
  | indexCount (count : Nat)
  | indexOutOfBounds (index : Int) (positions : Nat)
  | plyUnnamed
  | plyUnreadable (path : Path) (cause : PlyFailure)
  -- includes
  | includeMissing (name : String)
  | includeRecursive (path : Path)
  | includeUnreadable (path : Path) (cause : FileError)

namespace Problem

def kind : Problem → DiagnosticKind
  | unterminatedString | danglingEscape | unknownEscape _ => .lexical
  | strayToken _ | bracketExpected _ | bracketUnclosed | valueMissing _ | textureKindMissing _ =>
    .syntactic
  | directiveUnsupported _ | cameraUnknown _ | spectrumNamed .. | materialUnknown ..
  | etaTextured _ | textureUnknown .. | checkerboardDimension _ | lightUnknown _
  | areaLightUnknown _ | shapeUnknown _ | spherePartial => .unsupported
  | scopeUnmatched _ => .stack
  | plyUnreadable .. | includeMissing _ | includeRecursive _ | includeUnreadable .. => .io
  | _ => .semantic

def quoted (name : String) : String := "\"" ++ name ++ "\""

def message : Problem → String
  | unterminatedString => "Unterminated string literal"
  | danglingEscape => "Invalid end of escape sequence"
  | unknownEscape c => "Invalid escape sequence \\" ++ c.toString
  | strayToken token => "Unexpected " ++ token ++ " where an action was expected"
  | bracketExpected token => "Expected ']' but found " ++ token
  | bracketUnclosed => "Unexpected end of input, expected ']'"
  | valueMissing key => "Parameter " ++ quoted key ++ " has no value"
  | directiveUnknown word => "Unknown directive " ++ quoted word
  | directiveUnsupported word => word ++ " is not supported"
  | numbersExpected word count => word ++ " expects " ++ toString count ++ " numbers"
  | numberCount word count given =>
    word ++ " expects " ++ toString count ++ " numbers but got " ++ toString given
  | textExpected word => word ++ " expects a string operand"
  | axisZero => "Rotate around a zero-length axis"
  | scaleZero => "Scale by zero is not invertible"
  | upParallel =>
    "\"up\" vector and viewing direction passed to LookAt are pointing in the same direction"
  | transformSingular => "Transform matrix is singular"
  | concatSingular => "ConcatTransform matrix is singular"
  | coordinateSystemUnknown name => "Couldn't find named coordinate system " ++ quoted name
  | scopeUnmatched word => "Unmatched " ++ word ++ " encountered. Ignoring it."
  | cameraUnknown kind => "Camera " ++ quoted kind ++ " unknown."
  | fieldOfView degrees => "Invalid camera field of view " ++ Binary32.text degrees
  | filmResolution width height =>
    "Invalid film resolution " ++ toString width ++ "x" ++ toString height
  | objectOpen name => "Object " ++ quoted name ++ " is missing ObjectEnd"
  | objectNested => "ObjectBegin called inside of instance definition"
  | objectEndStray => "ObjectEnd called outside of instance definition"
  | instanceInObject => "ObjectInstance can't be called inside instance definition"
  | objectUnknown name => "Unable to find instance named " ++ quoted name
  | textureUndeclared name => "Texture " ++ quoted name ++ " is not declared"
  | colorInvalid parameter tag =>
    "Parameter " ++ quoted parameter ++ " has an invalid " ++ tag ++ " value"
  | colorUnsuitable parameter tag =>
    "Parameter " ++ quoted parameter ++ " of type " ++ tag ++ " is not a color"
  | spectrumNamed spectrum parameter =>
    "Named spectrum " ++ quoted spectrum ++ " for parameter " ++ quoted parameter
  | numberUnusable parameter =>
    "Parameter " ++ quoted parameter ++ " has no usable scalar value"
  | materialUnknown kind name =>
    "Material " ++ quoted kind ++ " unknown for " ++ quoted name ++ "."
  | materialKindMissing name =>
    "No parameter string \"type\" found in MakeNamedMaterial " ++ quoted name
  | materialUndeclared name => "NamedMaterial " ++ quoted name ++ " unknown"
  | mixIncomplete name => "Mix material " ++ quoted name ++ " needs two named materials"
  | mixUndeclared part name =>
    "Named material " ++ quoted part ++ " undefined. Cannot create mix material " ++ quoted name
  | etaTextured name => "Textured \"eta\" on material " ++ quoted name ++ ", using 1.5"
  | textureKindMissing name => "Texture " ++ quoted name ++ " is missing its class and kind"
  | textureClassUnknown word name =>
    "Texture type " ++ quoted word ++ " unknown for " ++ quoted name
  | textureUnknown kind name => "Texture " ++ quoted kind ++ " unknown for " ++ quoted name
  | imageUnnamed name => "Image texture " ++ quoted name ++ " has no filename"
  | checkerboardDimension dimension =>
    toString dimension ++ " dimensional checkerboard texture not supported"
  | lightUnknown kind => "Light " ++ quoted kind ++ " unknown."
  | areaLightUnknown kind => "Area light " ++ quoted kind ++ " unknown."
  | pointLightFrom => "\"from\" of point light needs three values"
  | distantLightPoint parameter => quoted parameter ++ " of distant light needs three values"
  | distantLightDirection => "Distant light has no direction"
  | shapeUnknown kind => "Shape " ++ quoted kind ++ " unknown."
  | sphereRadius radius => "Sphere radius " ++ Binary32.text radius ++ " must be positive"
  | spherePartial => "Partial spheres are written as full spheres"
  | positionsMissing => "Vertex positions \"P\" must be provided with triangle mesh."
  | positionCount count =>
    "Number of \"P\" values " ++ toString count ++ " for triangle mesh is not a multiple of 3"
  | indicesMissing => "Vertex indices \"indices\" must be provided with triangle mesh."
  | indexCount count =>
    "Number of vertex indices " ++ toString count ++ " not a multiple of 3"
  | indexOutOfBounds index positions =>
    "trianglemesh has out of-bounds vertex index " ++ toString index ++ " (" ++
      toString positions ++ " \"P\" values were given)"
  | plyUnnamed => "plymesh requires a \"filename\" parameter"
  | plyUnreadable path cause => cause.message path
  | includeMissing name => "Unable to find include file " ++ quoted name
  | includeRecursive path => "Recursive include of " ++ quoted path.text
  | includeUnreadable path cause =>
    "Failed to read include file " ++ quoted path.text ++ ": " ++ cause.message

def diagnostic (p : Problem) (file : Path) (line : Nat) : Diagnostic :=
  ⟨p.kind, some file, some line, p.message⟩

end Problem

end SceneConvert
