import SceneConvert.Decimal.Shortest
import SceneConvert.Path.Basic
import SceneConvert.Report.Diagnostic

/-!
# SceneConvert.Report.Remark

What a conversion says besides its diagnostics.
-/

namespace SceneConvert

inductive Remark where
  -- warnings
  | parameterUnused (name : String)
  | textureRedefined (name : String)
  | materialRedefined (name : String)
  | objectRedefined (name : String)
  | cameraReplaced
  | scopeUnclosed
  | colorsDropped (count : Nat)
  | scaleIgnored (tag parameter : String)
  | textureScaleIgnored (parameter : String)
  | valuesAveraged (count : Nat) (parameter : String)
  | frameAspectIgnored (aspect : Float32)
  | mapPreferred (light : String)
  | normalsDropped
  | uvsDropped (parameter : String)
  | plyExtension (path : Path)
  | imageMissing (path : Path) (texture : String)
  | wrapUnknown (word : String)
  | thresholdZero
  | finishedWith (count : Nat)
  -- information
  | started (input root : Path)
  | including (path : Path)
  | meshSeparate (vertices : Nat) (path : Path)
  | meshReferenced (vertices faces : Nat)
  | wrote (path : Path)
  | wroteMesh (path : Path) (vertices : Nat)
  | finished
  -- details
  | directiveIgnored (word : String)
  | rootSet (root : Path)
  | includeRepeated (path : Path)

namespace Remark

def level : Remark → Level
  | started .. | including _ | meshSeparate .. | meshReferenced .. | wrote _ | wroteMesh ..
  | finished => .info
  | directiveIgnored _ | rootSet _ | includeRepeated _ => .debug
  | _ => .warn

/-- The vertex count above which meshes get a file of their own, unless an option says otherwise. -/
def usualThreshold : Nat := 1000

def message : Remark → String
  | parameterUnused name => "Parameter \"" ++ name ++ "\" not used"
  | textureRedefined name => "Texture \"" ++ name ++ "\" redefined"
  | materialRedefined name => "Named material \"" ++ name ++ "\" redefined"
  | objectRedefined name => "Object \"" ++ name ++ "\" redefined"
  | cameraReplaced => "Only one camera is supported. Replacing the previous one."
  | scopeUnclosed => "Missing end to AttributeBegin"
  | colorsDropped count => "Using only the first of " ++ toString count ++ " colors"
  | scaleIgnored tag parameter => "Ignoring scale of " ++ tag ++ " parameter \"" ++ parameter ++ "\""
  | textureScaleIgnored parameter => "Ignoring scale of textured parameter \"" ++ parameter ++ "\""
  | valuesAveraged count parameter =>
    "Averaging " ++ toString count ++ " values of parameter \"" ++ parameter ++ "\""
  | frameAspectIgnored aspect => "Ignoring invalid \"frameaspectratio\" " ++ Binary32.text aspect
  | mapPreferred light =>
    "Infinite light \"" ++ light ++ "\" has both \"L\" and \"mapname\". Using the map."
  | normalsDropped => "Number of \"N\"s for triangle mesh must match \"P\"s. Discarding \"N\"s."
  | uvsDropped parameter =>
    "Number of \"" ++ parameter ++ "\"s for triangle mesh must match \"P\"s. Discarding \"" ++
      parameter ++ "\"s."
  | plyExtension path => "plymesh file \"" ++ path.text ++ "\" does not have a .ply extension"
  | imageMissing path texture =>
    "Image \"" ++ path.text ++ "\" of texture \"" ++ texture ++ "\" not found"
  | wrapUnknown word => "Unknown wrap method \"" ++ word ++ "\", using \"repeat\""
  | thresholdZero =>
    "Mesh threshold of 0 exports every mesh. Default is " ++ toString usualThreshold ++ "."
  | finishedWith count => "Translation finished with " ++ toString count ++ " diagnostics"
  | started input root => "Translating " ++ input.text ++ " (include root " ++ root.text ++ ")"
  | including path => "Including " ++ path.text
  | meshSeparate vertices path =>
    "Exporting mesh with " ++ toString vertices ++ " vertices to " ++ path.text
  | meshReferenced vertices faces =>
    "Referencing PLY file with " ++ toString vertices ++ " vertices and " ++ toString faces ++ " faces"
  | wrote path => "Wrote " ++ path.text
  | wroteMesh path vertices => "Wrote " ++ path.text ++ " with " ++ toString vertices ++ " vertices"
  | finished => "Translation finished"
  | directiveIgnored word => "Ignoring " ++ word
  | rootSet root => "Set include root to " ++ root.text
  | includeRepeated path => "Skipping repeated include of " ++ path.text

end Remark

/-- One entry of the journal. -/
inductive Note where
  | remark (r : Remark)
  | report (d : Diagnostic)

namespace Note

def level : Note → Level
  | remark r => r.level
  | report d => d.level

def message : Note → String
  | remark r => r.message
  | report d => d.display

def line (n : Note) : String := "[" ++ n.level.label ++ "] " ++ n.message

def diagnostic? : Note → Option Diagnostic
  | remark _ => none
  | report d => some d

end Note

abbrev Journal := Array Note

namespace Journal

def diagnostics (j : Journal) : List Diagnostic := j.toList.filterMap Note.diagnostic?

def upTo (j : Journal) (level : Level) : List Note :=
  j.toList.filter fun n => n.level.rank ≤ level.rank

def text (j : Journal) (level : Level) : String :=
  String.join ((j.upTo level).map fun n => n.line ++ "\n")

end Journal

end SceneConvert
