import SceneConvert.Files.Tree
import SceneConvert.Text.Escaped

/-!
# SceneConvert.Mesh.PlyHeader

The header of a PLY mesh file: lines of text, each of one of seven forms.

* `PlyLine.ofChars`: the form of a line, by the format's grammar.
* `PlyHeader.ofLines`: the header that the lines up to `end_header` make.
* `PlyInfo.ofHeader`: the counts and vertex attributes that a scene needs.
* `readPlyInfo`: all of it, from a file.
-/

namespace SceneConvert

inductive PlyEncoding where
  | ascii
  | bigEndian
  | littleEndian
  deriving Repr, DecidableEq

inductive PlyScalar where
  | char | uchar | short | ushort | int | uint | float | double
  deriving Repr, DecidableEq

inductive PlyType where
  | scalar (s : PlyScalar)
  | list (count item : PlyScalar)
  deriving Repr, DecidableEq

structure PlyFormat where
  encoding : PlyEncoding
  major : Nat
  minor : Nat
  deriving Repr, DecidableEq

structure PlyProperty where
  name : String
  type : PlyType
  deriving Repr, DecidableEq

/-- A group of things in the file, with the properties that each of them has. -/
structure PlyElement where
  name : String
  count : Nat
  properties : List PlyProperty
  deriving Repr, DecidableEq

inductive PlyLine where
  | magic
  | format (f : PlyFormat)
  | objectInfo (text : String)
  | comment (text : String)
  | element (e : PlyElement)
  | property (p : PlyProperty)
  | endHeader
  deriving Repr, DecidableEq

namespace PlyEncoding

def label : PlyEncoding → String
  | ascii => "Ascii"
  | bigEndian => "BinaryBigEndian"
  | littleEndian => "BinaryLittleEndian"

end PlyEncoding

namespace PlyScalar

def label : PlyScalar → String
  | char => "Char"
  | uchar => "UChar"
  | short => "Short"
  | ushort => "UShort"
  | int => "Int"
  | uint => "UInt"
  | float => "Float"
  | double => "Double"

/-- The words for each type, in the order in which they are tried. -/
def words : List (String × PlyScalar) :=
  [("char", char), ("int8", char), ("uchar", uchar), ("uint8", uchar), ("short", short),
   ("int16", short), ("uint16", ushort), ("ushort", ushort), ("int32", int), ("int", int),
   ("uint32", uint), ("uint", uint), ("float32", float), ("float64", double), ("float", float),
   ("double", double)]

end PlyScalar

namespace PlyType

def label : PlyType → String
  | scalar s => "Scalar(" ++ s.label ++ ")"
  | list count item => "List(" ++ count.label ++ ", " ++ item.label ++ ")"

end PlyType

namespace PlyFormat

def versionLabel (f : PlyFormat) : String :=
  "Version \x7b major: " ++ toString f.major ++ ", minor: " ++ toString f.minor ++ " \x7d"

end PlyFormat

namespace PlyProperty

def label (p : PlyProperty) : String :=
  "PropertyDef \x7b name: " ++ escaped p.name ++ ", data_type: " ++ p.type.label ++ " \x7d"

end PlyProperty

namespace PlyLine

def label : PlyLine → String
  | magic => "MagicNumber"
  | format f => "Format((" ++ f.encoding.label ++ ", " ++ f.versionLabel ++ "))"
  | objectInfo text => "ObjInfo(" ++ escaped text ++ ")"
  | comment text => "Comment(" ++ escaped text ++ ")"
  | element e =>
    "Element(ElementDef \x7b name: " ++ escaped e.name ++ ", count: " ++ toString e.count ++
      ", properties: \x7b\x7d \x7d)"
  | property p => "Property(" ++ p.label ++ ")"
  | endHeader => "EndHeader"

end PlyLine

/-- Why a line has no form: it fits none, or it holds a number that no counter can hold. The second
ends the whole conversion. -/
inductive PlyLineFault where
  | unknown
  | overflow
  deriving Repr, DecidableEq

/-- Reads a value off the start of a line and leaves the rest. -/
abbrev PlyReader := StateT (List Char) (Except PlyLineFault)

namespace PlyLine

def isSpace (c : Char) : Bool := c == ' ' || c == '\t'

def word (w : String) : PlyReader Unit := fun cs =>
  if w.toList.isPrefixOf cs then .ok ((), cs.drop w.length) else .error .unknown

def spaces : PlyReader Unit := fun cs =>
  if (cs.takeWhile isSpace).isEmpty then .error .unknown else .ok ((), cs.dropWhile isSpace)

/-- The largest number that a counter holds. -/
def counterMax : Nat := Nat.pow 2 64 - 1

def number : PlyReader Nat := fun cs =>
  let digits := cs.takeWhile Char.isDigit
  let value := Nat.ofDigitChars 10 digits 0
  if digits.isEmpty then .error .unknown
  else if counterMax < value then .error .overflow
  else .ok (value, cs.dropWhile Char.isDigit)

def isIdentifierStart (c : Char) : Bool := c.isAlpha || c == '_'

def isIdentifierChar (c : Char) : Bool := c.isAlphanum || c == '_' || c == '-'

def identifier : PlyReader String
  | [] => .error .unknown
  | c :: cs =>
    if isIdentifierStart c then
      .ok (String.ofList (c :: cs.takeWhile isIdentifierChar), cs.dropWhile isIdentifierChar)
    else .error .unknown

def oneOf {β : Type} (table : List (String × β)) : PlyReader β := fun cs =>
  match table.find? fun entry => entry.1.toList.isPrefixOf cs with
  | some (w, value) => .ok (value, cs.drop w.length)
  | none => .error .unknown

def scalar : PlyReader PlyScalar := oneOf PlyScalar.words

/-- The list type, behind which come the types of its count and of its items. -/
def listType : PlyReader PlyType := do
  word "list"
  spaces
  let count ← scalar
  spaces
  let item ← scalar
  pure (.list count item)

def type : PlyReader PlyType := fun cs =>
  match scalar cs with
  | .ok (s, rest) => .ok (.scalar s, rest)
  | .error _ => listType cs

/-- Behind `format`: encoding and version. Version numbers are kept modulo 2¹⁶ and 2⁸. -/
def formatBody : PlyReader PlyLine := do
  spaces
  let encoding ← oneOf
    [("ascii", PlyEncoding.ascii), ("binary_big_endian", .bigEndian),
     ("binary_little_endian", .littleEndian)]
  spaces
  let major ← number
  word "."
  let minor ← number
  pure (.format ⟨encoding, major % Nat.pow 2 16, minor % Nat.pow 2 8⟩)

/-- Behind `comment` or `obj_info`: a text that reaches to the line break, or nothing. -/
def textBody (make : String → PlyLine) : PlyReader PlyLine := fun cs =>
  let rest := cs.dropWhile isSpace
  let text := rest.takeWhile fun c => c != '\n' && c != '\r'
  if (cs.takeWhile isSpace).isEmpty || text.isEmpty then .ok (make "", rest)
  else .ok (make (String.ofList text), rest.dropWhile fun c => c != '\n' && c != '\r')

def elementBody : PlyReader PlyLine := do
  spaces
  let name ← identifier
  spaces
  let count ← number
  pure (.element ⟨name, count, []⟩)

def propertyBody : PlyReader PlyLine := do
  spaces
  let t ← type
  spaces
  let name ← identifier
  pure (.property ⟨name, t⟩)

def forms : List (String × PlyReader PlyLine) :=
  [("ply", pure .magic), ("end_header", pure .endHeader), ("format", formatBody),
   ("obj_info", textBody .objectInfo), ("comment", textBody .comment), ("element", elementBody),
   ("property", propertyBody)]

/-- The form of a line, its line break included. -/
def ofChars (cs : List Char) : Except PlyLineFault PlyLine := do
  let (body, cs) ← oneOf forms cs
  let (line, cs) ← body cs
  if [[], ['\r', '\n'], ['\n'], ['\r']].contains (cs.dropWhile isSpace) then pure line
  else .error .unknown

end PlyLine

/-- What is wrong with a header, with the number of the line and the line. -/
inductive PlyHeaderFault where
  | unreadable (cause : FileError)
  | magicExpected (line : String) (found : Option PlyLine)
  | lineUnknown (number : Nat) (line : String)
  | magicAgain (number : Nat) (line : String)
  | formatContradicts (number : Nat) (line : String) (new old : PlyFormat)
  | propertyStray (number : Nat) (line : String) (p : PlyProperty)
  | formatMissing
  deriving Repr, DecidableEq

namespace PlyHeaderFault

def aboutLine (number : Nat) (line what : String) : String :=
  "Line " ++ toString number ++ ": " ++ what ++ "\n\tString: '" ++ line ++ "'"

def formatLines (f : PlyFormat) : String :=
  "\n\tEncoding: " ++ f.encoding.label ++ ", Version: " ++ f.versionLabel

def message : PlyHeaderFault → String
  | unreadable cause => cause.message
  | magicExpected line none => aboutLine 1 line "Expected magic number 'ply'."
  | magicExpected line (some found) =>
    aboutLine 1 line ("Expected magic number 'ply', but saw '" ++ found.label ++ "'.")
  | lineUnknown number line => aboutLine number line "Couldn't parse line."
  | magicAgain number line => aboutLine number line "Unexpected 'ply' found."
  | formatContradicts number line new old =>
    aboutLine number line ("Found contradicting format definition:" ++ formatLines new ++
      "\nprevious definition:" ++ formatLines old)
  | propertyStray number line p =>
    aboutLine number line ("Property '" ++ p.label ++ "' found without preceding element.")
  | formatMissing => "No format line found."

end PlyHeaderFault

inductive PlyFailure where
  | unopened (cause : FileError)
  | header (fault : PlyHeaderFault)
  | positionsMissing
  | empty
  deriving Repr, DecidableEq

namespace PlyFailure

def message (path : Path) : PlyFailure → String
  | unopened cause => "Couldn't open PLY file \"" ++ path.text ++ "\": " ++ cause.message
  | header fault => "Couldn't read PLY header of \"" ++ path.text ++ "\": " ++ fault.message
  | positionsMissing => "PLY file \"" ++ path.text ++ "\": Vertex coordinate property not found"
  | empty => "PLY file \"" ++ path.text ++ "\" is invalid! No face/vertex elements found"

end PlyFailure

/-- How reading a mesh file ends without an answer. -/
inductive PlyStop where
  | failure (f : PlyFailure)
  | overflow
  deriving Repr, DecidableEq

namespace PlyElement

/-- The element with one more property, in place of an older one of that name. -/
def withProperty (e : PlyElement) (p : PlyProperty) : PlyElement :=
  { e with properties := e.properties.filter (·.name != p.name) ++ [p] }

def hasProperty (e : PlyElement) (name : String) : Bool := e.properties.any (·.name == name)

def hasProperties (e : PlyElement) (names : List String) : Bool := names.all e.hasProperty

end PlyElement

structure PlyHeader where
  format : PlyFormat
  elements : List PlyElement
  deriving Repr, DecidableEq

namespace PlyHeader

def fault {β : Type} (f : PlyHeaderFault) : Except PlyStop β := .error (.failure (.header f))

/-- The lines of a header behind the first one, from line `number` on. Elements are kept from the last
to the first. A line that the file does not have is empty. -/
def bodyOfLines (number : Nat) (format : Option PlyFormat) (elements : List PlyElement) :
    List (Except FileError String) → Except PlyStop PlyHeader
  | [] => fault (.lineUnknown number "")
  | .error e :: _ => fault (.unreadable e)
  | .ok line :: rest =>
    match PlyLine.ofChars line.toList with
    | .error .overflow => .error .overflow
    | .error .unknown => fault (.lineUnknown number line)
    | .ok .magic => fault (.magicAgain number line)
    | .ok (.format f) =>
      match format with
      | none => bodyOfLines (number + 1) (some f) elements rest
      | some old =>
        if f = old then bodyOfLines (number + 1) format elements rest
        else fault (.formatContradicts number line f old)
    | .ok (.objectInfo _) | .ok (.comment _) => bodyOfLines (number + 1) format elements rest
    | .ok (.element e) =>
      bodyOfLines (number + 1) format (e :: elements.filter (·.name != e.name)) rest
    | .ok (.property p) =>
      match elements with
      | [] => fault (.propertyStray number line p)
      | e :: before => bodyOfLines (number + 1) format (e.withProperty p :: before) rest
    | .ok .endHeader =>
      match format with
      | none => fault .formatMissing
      | some f => .ok ⟨f, elements.reverse⟩

def ofLines : List (Except FileError String) → Except PlyStop PlyHeader
  | [] => fault (.magicExpected "" none)
  | .error e :: _ => fault (.unreadable e)
  | .ok line :: rest =>
    match PlyLine.ofChars line.toList with
    | .error .overflow => .error .overflow
    | .error .unknown => fault (.magicExpected line none)
    | .ok .magic => bodyOfLines 2 none [] rest
    | .ok found => fault (.magicExpected line (some found))

end PlyHeader

structure PlyInfo where
  vertices : Nat
  faces : Nat
  hasNormals : Bool
  hasUvs : Bool
  deriving Repr, DecidableEq

namespace PlyInfo

def uvNames : List (List String) :=
  [["u", "v"], ["s", "t"], ["texture_u", "texture_v"], ["texture_s", "texture_t"]]

def withElement (i : PlyInfo) (e : PlyElement) : Except PlyStop PlyInfo :=
  if e.name == "vertex" then
    if e.hasProperties ["x", "y", "z"] then
      .ok { i with
        vertices := e.count
        hasNormals := e.hasProperties ["nx", "ny", "nz"]
        hasUvs := uvNames.any e.hasProperties }
    else .error (.failure .positionsMissing)
  else if e.name == "face" then .ok { i with faces := e.count }
  else .ok i

def ofHeader (h : PlyHeader) : Except PlyStop PlyInfo := do
  let i ← h.elements.foldlM withElement ⟨0, 0, false, false⟩
  if i.vertices == 0 || i.faces == 0 then .error (.failure .empty) else pure i

end PlyInfo

/-- The lines of a file, each with its line break, cut at the bytes of line breaks. -/
def byteLines (line : List UInt8) : List UInt8 → List (List UInt8)
  | [] => if line.isEmpty then [] else [line.reverse]
  | b :: bs => if b = 10 then (b :: line).reverse :: byteLines [] bs else byteLines (b :: line) bs

def textLine (bytes : List UInt8) : Except FileError String :=
  match String.fromUTF8? ⟨bytes.toArray⟩ with
  | some s => .ok s
  | none => .error .notText

def readPlyInfo (t : FileTree) (p : Path) : Except PlyStop PlyInfo :=
  match t.find p with
  | .error e => .error (.failure (.unopened e))
  | .ok .directory => PlyHeader.fault (.unreadable .isADirectory)
  | .ok (.file content) => do
    let header ← PlyHeader.ofLines ((byteLines [] content.data.toList).map textLine)
    PlyInfo.ofHeader header

end SceneConvert
