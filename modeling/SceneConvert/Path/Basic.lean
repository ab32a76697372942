/-!
# SceneConvert.Path.Basic

File paths. A path keeps the text it was written with; its meaning is the list of its components.

* `components`: the root, a leading `.`, each `..` and each name. Empty segments and other `.`
  segments mean nothing.
* `join`: one path below another.
* `parent?`, `fileName?`, `stem?`, `extension?`: the parts of a path.
* `withFileName`, `withExtension`, `below?`: paths made from paths.
-/

namespace SceneConvert

/-- What one segment of a path stands for. -/
inductive Component where
  | root
  | current
  | parent
  | name (s : String)
  deriving Repr, DecidableEq

structure Path where
  text : String
  deriving Repr, DecidableEq, Inhabited

namespace Path

def splitSlashes : List Char → List (List Char)
  | [] => [[]]
  | c :: cs =>
    if c = '/' then [] :: splitSlashes cs
    else match splitSlashes cs with
      | [] => [[c]]
      | s :: ss => (c :: s) :: ss

def joinSlashes : List (List Char) → List Char
  | [] => []
  | [s] => s
  | s :: ss => s ++ '/' :: joinSlashes ss

/-- A segment that means nothing: empty or `.`. -/
def isIdle (s : List Char) : Bool := s.isEmpty || s == ['.']

def isAbsolute (p : Path) : Bool := p.text.toList.head? == some '/'

def startsWithCurrent (p : Path) : Bool :=
  !p.isAbsolute && (splitSlashes p.text.toList).head? == some ['.']

def segmentComponent? (s : List Char) : Option Component :=
  if isIdle s then none
  else if s = ['.', '.'] then some .parent
  else some (.name (String.ofList s))

def components (p : Path) : List Component :=
  (if p.isAbsolute then [.root] else if p.startsWithCurrent then [.current] else []) ++
    (splitSlashes p.text.toList).filterMap segmentComponent?

def componentText : Component → String
  | .root => "/"
  | .current => "."
  | .parent => ".."
  | .name s => s

/-- The path written from components: a leading root, then the others with a slash between. -/
def ofComponents : List Component → Path
  | .root :: cs => ⟨"/" ++ String.intercalate "/" (cs.map componentText)⟩
  | cs => ⟨String.intercalate "/" (cs.map componentText)⟩

/-- The path `q` seen from `p`: `q` itself when it is absolute. -/
def join (p q : Path) : Path :=
  if q.isAbsolute then q
  else
    let open? := !p.text.isEmpty && p.text.toList.getLast? != some '/'
    ⟨p.text ++ (if open? then "/" else "") ++ q.text⟩

def fileName? (p : Path) : Option String :=
  match p.components.getLast? with
  | some (.name s) => some s
  | _ => none

/-- The part of a path before its body: the root or a leading `.`. -/
def anchor (p : Path) : List Char :=
  if p.isAbsolute then ['/'] else if p.startsWithCurrent then ['.'] else []

/-- The path without its last component. The root and the empty path have no parent; what remains is
the start of the text as it is written, without slashes or `.` segments at its end. -/
def parent? (p : Path) : Option Path :=
  let anchor := p.anchor
  let segments := splitSlashes (p.text.toList.drop anchor.length)
  match segments.reverse.dropWhile isIdle with
  | _ :: before => some ⟨String.ofList (anchor ++ joinSlashes (before.dropWhile isIdle).reverse)⟩
  | [] => if anchor = ['.'] then some ⟨""⟩ else none

/-- A file name cut at its last point; a name whose only point comes first has no extension. -/
def splitExtension (name : List Char) : List Char × Option (List Char) :=
  let behind := (name.reverse.takeWhile (· != '.')).reverse
  let before := (name.reverse.dropWhile (· != '.')).tail.reverse
  if name = ['.', '.'] || before.isEmpty then (name, none) else (before, some behind)

def stem? (p : Path) : Option String :=
  p.fileName?.map fun name => String.ofList (splitExtension name.toList).1

def extension? (p : Path) : Option String :=
  p.fileName?.bind fun name => (splitExtension name.toList).2.map String.ofList

def hasExtension (p : Path) (ext : String) : Bool := p.extension? == some ext

/-- The path with another file name; a path without one gets it appended. -/
def withFileName (p : Path) (name : String) : Path :=
  if p.fileName?.isSome then (p.parent?.getD p).join ⟨name⟩ else p.join ⟨name⟩

def withExtension (p : Path) (ext : String) : Path :=
  match p.stem? with
  | none => p
  | some stem => (p.parent?.getD p).join ⟨stem ++ "." ++ ext⟩

/-- The components of `p` that follow those of `base`, if `p` lies below `base`. -/
def below? (p base : Path) : Option (List Component) :=
  if base.components.isPrefixOf p.components then some (p.components.drop base.components.length)
  else none

def same (p q : Path) : Bool := p.components == q.components

end Path

end SceneConvert
