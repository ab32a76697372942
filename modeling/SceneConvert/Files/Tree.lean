import SceneConvert.Path.Basic

/-!
# SceneConvert.Files.Tree

A tree of files and directories without links, and the directory that relative paths start from.

* `FileTree.locate`: walks a path; every segment, also `.` and an empty one, needs a directory to be
  looked up in.
* `Path.defect?`: what is wrong with a path whatever the tree.
* `isFile`, `read`, `readText`: what reading a path gives.
* `write`, `append`, `makeDirectory`: the tree after a change, or why there is none.
* `makeDirectories`: a directory with all directories above it. Those that were made stay, also when
  the last one cannot be made.
* `extend`: the tree in which a file has grown.
-/

namespace SceneConvert

/-- Why the file system refuses a request. -/
inductive FileError where
  | notFound
  | alreadyExists
  | notADirectory
  | isADirectory
  | nameTooLong
  | nulInPath
  | notText
  deriving Repr, DecidableEq

namespace FileError

def message : FileError → String
  | notFound => "No such file or directory (os error 2)"
  | alreadyExists => "File exists (os error 17)"
  | notADirectory => "Not a directory (os error 20)"
  | isADirectory => "Is a directory (os error 21)"
  | nameTooLong => "File name too long (os error 36)"
  | nulInPath => "file name contained an unexpected NUL byte"
  | notText => "stream did not contain valid UTF-8"

end FileError

/-- The greatest number of bytes in a path. -/
def Path.maxBytes : Nat := 4095

/-- The greatest number of bytes in the name of a file or a directory. -/
def Path.maxNameBytes : Nat := 255

/-- Why a path leads nowhere in any tree. -/
def Path.defect? (p : Path) : Option FileError :=
  if p.text.toList.contains '\x00' then some .nulInPath
  else if p.text.isEmpty then some .notFound
  else if Path.maxBytes < p.text.utf8ByteSize then some .nameTooLong
  else none

def Path.isOverlong (segment : List Char) : Bool :=
  Path.maxNameBytes < (String.ofList segment).utf8ByteSize

/-- The names on the way from the root to a file or a directory. -/
abbrev Place := List String

inductive Node where
  | file (content : ByteArray)
  | directory
  deriving Inhabited

/-- A file with more content behind its own. A directory stays as it is. -/
def Node.extend : Node → ByteArray → Node
  | .file content, more => .file (content ++ more)
  | .directory, _ => .directory

/-- The nodes of a file system, each with its place, and the working directory. The root is always a
directory. -/
structure FileTree where
  nodes : List (Place × Node)
  workingDirectory : Place

namespace FileTree

def pathOf (place : Place) : Path := Path.ofComponents (.root :: place.map .name)

def currentPath (t : FileTree) : Path := pathOf t.workingDirectory

def node? (t : FileTree) (place : Place) : Option Node :=
  if place.isEmpty then some .directory else t.nodes.lookup place

def isDirectoryAt (t : FileTree) (place : Place) : Bool :=
  match t.node? place with
  | some .directory => true
  | _ => false

def filePlaces (t : FileTree) : List Place :=
  t.nodes.filterMap fun (place, node) => match node with
    | .file _ => some place
    | .directory => none

/-- The nodes that another tree does not have, or has with another content. -/
def changes (t old : FileTree) : List (Place × Node) :=
  t.nodes.filter fun (place, node) =>
    match node, old.node? place with
    | .directory, some .directory => false
    | .file new, some (.file old) => new != old
    | _, _ => true

/-- Looks one segment up in the directory at `place`. -/
def enter (t : FileTree) (place : Place) (segment : List Char) : Except FileError Place :=
  if !t.isDirectoryAt place then .error .notADirectory
  else if Path.isIdle segment then .ok place
  else if segment = ['.', '.'] then .ok place.dropLast
  else if Path.isOverlong segment then .error .nameTooLong
  else
    let target := place ++ [String.ofList segment]
    if (t.node? target).isSome then .ok target else .error .notFound

/-- Looks segments up one after the other. -/
def walk (t : FileTree) (place : Place) : List (List Char) → Except FileError Place
  | [] => .ok place
  | s :: ss =>
    match t.enter place s with
    | .error e => .error e
    | .ok next => t.walk next ss

def start (t : FileTree) (p : Path) : Place := if p.isAbsolute then [] else t.workingDirectory

def locate (t : FileTree) (p : Path) : Except FileError Place :=
  match p.defect? with
  | some e => .error e
  | none => t.walk (t.start p) (Path.splitSlashes p.text.toList)

def find (t : FileTree) (p : Path) : Except FileError Node :=
  (t.locate p).bind fun place => ((t.node? place).map .ok).getD (.error .notFound)

def isFile (t : FileTree) (p : Path) : Bool :=
  match t.find p with
  | .ok (.file _) => true
  | _ => false

def isDirectory (t : FileTree) (p : Path) : Bool :=
  match t.find p with
  | .ok .directory => true
  | _ => false

def read (t : FileTree) (p : Path) : Except FileError ByteArray :=
  match t.find p with
  | .ok (.file content) => .ok content
  | .ok .directory => .error .isADirectory
  | .error e => .error e

def readText (t : FileTree) (p : Path) : Except FileError String :=
  (t.read p).bind fun content =>
    match String.fromUTF8? content with
    | some text => .ok text
    | none => .error .notText

def filePaths (t : FileTree) : List Path := t.filePlaces.map pathOf

theorem mem_of_lookup {es : List (Place × Node)} {place : Place} {node : Node}
    (h : es.lookup place = some node) : (place, node) ∈ es := by
  induction es with
  | nil => simp at h
  | cons e es ih =>
    rw [List.lookup_cons] at h
    split at h
    · rename_i hk
      have : place = e.1 := by simpa using hk
      cases h
      subst this
      exact List.mem_cons_self
    · exact List.mem_cons_of_mem _ (ih h)

theorem mem_filePlaces {t : FileTree} {place : Place} {content : ByteArray}
    (h : t.node? place = some (.file content)) : place ∈ t.filePlaces := by
  unfold node? at h
  split at h
  · simp at h
  · simp only [filePlaces, List.mem_filterMap]
    exact ⟨_, mem_of_lookup h, rfl⟩

theorem locate_of_readText {t : FileTree} {p : Path} {text : String} (h : t.readText p = .ok text) :
    ∃ place, t.locate p = .ok place ∧ place ∈ t.filePlaces := by
  unfold readText read find at h
  cases hl : t.locate p with
  | error e => simp [hl, Except.bind] at h
  | ok place =>
    cases hn : t.node? place with
    | none => simp [hl, hn, Except.bind] at h
    | some node =>
      cases node with
      | directory => simp [hl, hn, Except.bind] at h
      | file content => exact ⟨place, rfl, mem_filePlaces hn⟩

def put (t : FileTree) (place : Place) (node : Node) : FileTree :=
  if t.nodes.any (·.1 == place) then
    { t with nodes := t.nodes.map fun entry => if entry.1 == place then (place, node) else entry }
  else { t with nodes := t.nodes ++ [(place, node)] }

/-- Where a path would make a new node: the directory of its last segment and that segment. Slashes at
the end are not counted. -/
def slot (t : FileTree) (p : Path) : Except FileError (Place × List Char) :=
  match p.defect? with
  | some e => .error e
  | none =>
    match (Path.splitSlashes p.text.toList).reverse.dropWhile List.isEmpty with
    | [] => .ok ([], [])
    | last :: before => (t.walk (t.start p) before.reverse).bind fun place =>
      if !t.isDirectoryAt place then .error .notADirectory
      else if Path.isOverlong last then .error .nameTooLong
      else .ok (place, last)

/-- Whether a segment names something in its directory, other than the directory or its parent. -/
def isName (segment : List Char) : Bool := !Path.isIdle segment && segment != ['.', '.']

/-- The tree after `content` is put into the file at `p`, `edit` telling what becomes of an old
content. -/
def store (t : FileTree) (p : Path) (edit : ByteArray → ByteArray) (fresh : ByteArray) :
    Except FileError FileTree :=
  (t.slot p).bind fun (place, last) =>
    if !isName last || p.text.toList.getLast? == some '/' then .error .isADirectory
    else
      let target := place ++ [String.ofList last]
      match t.node? target with
      | some .directory => .error .isADirectory
      | some (.file old) => .ok (t.put target (.file (edit old)))
      | none => .ok (t.put target (.file fresh))

def write (t : FileTree) (p : Path) (content : ByteArray) : Except FileError FileTree :=
  t.store p (fun _ => content) content

def append (t : FileTree) (p : Path) (content : ByteArray) : Except FileError FileTree :=
  t.store p (· ++ content) content

/-- The tree with a new directory at `p`, in a directory that exists. -/
def makeDirectory (t : FileTree) (p : Path) : Except FileError FileTree :=
  (t.slot p).bind fun (place, last) =>
    if !isName last then .error .alreadyExists
    else
      let target := place ++ [String.ofList last]
      if (t.node? target).isSome then .error .alreadyExists else .ok (t.put target .directory)

/-- The tree after an attempt to have a directory at `p`, old or new, and all directories above it, and
why there is none. Only a directory that is missing sends the search to the parent; `depth` bounds
the number of parents. -/
def makeDirectoriesTo (depth : Nat) (t : FileTree) (p : Path) : FileTree × Option FileError :=
  if p.text.isEmpty then (t, none)
  else match t.makeDirectory p with
    | .ok t => (t, none)
    | .error .notFound =>
      match depth, p.parent? with
      | depth + 1, some parent =>
        match makeDirectoriesTo depth t parent with
        | (t, some e) => (t, some e)
        | (t, none) =>
          match t.makeDirectory p with
          | .ok t => (t, none)
          | .error e => (t, if t.isDirectory p then none else some e)
      | _, _ => (t, some .notFound)
    | .error e => (t, if t.isDirectory p then none else some e)

/-- The tree after an attempt to have a directory at `p`, old or new, and all directories above it, and
why there is none. -/
def makeDirectories (t : FileTree) (p : Path) : FileTree × Option FileError :=
  makeDirectoriesTo p.text.length t p

/-- The tree in which the file at `place` has `more` at its end. -/
def extend (t : FileTree) (place : Place) (more : ByteArray) : FileTree :=
  { t with nodes := t.nodes.map fun (q, node) => (q, if q = place then node.extend more else node) }

/-- A file that grows stays where it is. -/
theorem filePlaces_extend (t : FileTree) (place : Place) (more : ByteArray) :
    (t.extend place more).filePlaces = t.filePlaces := by
  simp only [filePlaces, extend, List.filterMap_map]
  congr 1
  funext entry
  obtain ⟨q, node⟩ := entry
  by_cases h : q = place <;> cases node <;> simp [h, Node.extend]

theorem filePaths_extend (t : FileTree) (place : Place) (more : ByteArray) :
    (t.extend place more).filePaths = t.filePaths := by
  rw [filePaths, filePlaces_extend, filePaths]

end FileTree

end SceneConvert
