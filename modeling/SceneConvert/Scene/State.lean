import SceneConvert.Document.Fragment
import SceneConvert.Report.Problem
import SceneConvert.Report.Remark
import SceneConvert.Scene.Counters
import SceneConvert.Scene.Dictionary

/-!
# SceneConvert.Scene.State

What a conversion remembers between two directives.

* `Graphics`: what the next shape is bound to.
* `State`: the graphics state with its saved copies, everything that has a name, and the output so
  far, file by file and in the order in which it was written.
* `write`, `emit`, `drawEntity`, `addShape`: growing the output.
* `note`, `report`: growing the journal.
-/

namespace SceneConvert

/-- What the next shape is bound to. -/
structure Graphics (α : Type) where
  transform : Transform α
  material : Option String
  emission : Option String
  flipped : Bool

namespace Graphics

variable {α : Type}

def initial [Scalar α] : Graphics α := ⟨Transform.identity, none, none, false⟩

def binding (g : Graphics α) : Binding α := ⟨g.material, g.emission, g.flipped, g.transform⟩

end Graphics

structure OpenObject (α : Type) where
  name : String
  /-- The transform at the start of the definition. -/
  base : Transform α

structure SeparateMesh where
  file : Path
  mesh : TriangleMesh

/-- A finished file of the output. -/
structure Page (α : Type) where
  file : Path
  entries : List (Entry α)

/-- An entry at the moment when it was written. -/
structure Writing (α : Type) where
  entry : Entry α
  /-- How deep it stands in the text of its file. -/
  depth : Nat
  /-- The length of the journal at that moment. -/
  said : Nat

/-- Whether some line of the entry stands deeper than zero. -/
def Writing.isIndented {α : Type} (w : Writing α) : Bool := 0 < w.depth || w.entry.hasBody

structure State (α : Type) where
  graphics : Graphics α
  /-- The graphics states of the open scopes, the innermost first. -/
  saved : List (Graphics α)
  coordinateSystems : Dictionary String (Transform α)
  /-- The shapes of each object, in the order in which they were recorded. -/
  objects : Dictionary String (Array (Placed α))
  openObject : Option (OpenObject α)
  materials : List String
  textures : List String
  counters : Counters
  camera : Option (Camera α)
  /-- Width over height of the film. -/
  filmAspect : Option Float32
  /-- The entries of the file that is being written. -/
  page : Array (Entry α)
  /-- How deep the entries of that file stand in its text. -/
  pageDepth : Nat
  /-- Everything that was written, in order, whatever the file. -/
  written : Array (Writing α)
  finished : Array (Page α)
  /-- How often each output name was asked for. -/
  outputNames : Dictionary Path Nat
  /-- The files that were included to the end, with the file each was written to, if it has one. -/
  included : Dictionary Path (Option Path)
  meshes : Array SeparateMesh
  journal : Journal
  /-- The file and the line of the last directive. -/
  location : Path × Nat
  /-- Whether a mesh file stopped the conversion for good. -/
  halted : Bool

namespace State

variable {α : Type}

/-- The state before the first directive of `input`, whose entries stand at this depth. -/
def initial [Scalar α] (input : Path) (depth : Nat) : State α where
  graphics := Graphics.initial
  saved := []
  coordinateSystems := {}
  objects := {}
  openObject := none
  materials := []
  textures := []
  counters := {}
  camera := none
  filmAspect := none
  page := #[]
  pageDepth := depth
  written := #[]
  finished := #[]
  outputNames := {}
  included := {}
  meshes := #[]
  journal := #[]
  location := (input, 0)
  halted := false

/-- The number of graphics states, the current one included. -/
def depth (s : State α) : Nat := s.saved.length + 1

def hasTexture (s : State α) (name : String) : Bool := s.textures.contains name

def hasMaterial (s : State α) (name : String) : Bool := s.materials.contains name

def note (s : State α) (n : Note) : State α := { s with journal := s.journal.push n }

def remark (s : State α) (r : Remark) : State α := s.note (.remark r)

/-- Reports a diagnostic, at the place of the last directive unless it has one. -/
def report (s : State α) (d : Diagnostic) : State α :=
  s.note (.report (d.located s.location.1 s.location.2))

def reportProblem (s : State α) (p : Problem) : State α :=
  s.note (.report (p.diagnostic s.location.1 s.location.2))

def diagnostics (s : State α) : List Diagnostic := s.journal.diagnostics

/-- The next name of a kind, and the state in which it is taken. -/
def take (s : State α) (c : Counter) : String × State α :=
  (s.counters.next c, { s with counters := s.counters.add 1 c })

def write (s : State α) (e : Entry α) : State α :=
  { s with page := s.page.push e, written := s.written.push ⟨e, s.pageDepth, s.journal.size⟩ }

/-- The length of the journal when the first line was written that stands deeper than zero. -/
def firstIndented (s : State α) : Option Nat := (s.written.find? Writing.isIndented).map Writing.said

def emit (s : State α) (f : Fragment α) : State α := s.write (.fragment f)

def emitAll (s : State α) (fs : List (Fragment α)) : State α := fs.foldl emit s

def drawEntity (s : State α) (p : Placed α) : State α :=
  let (name, s) := s.take .shape
  s.emit (.entity name p)

/-- Adds a shape with the current binding: to the object that is being defined, its transform taken
from the start of the definition, or else as an entity. -/
def addShape [Scalar α] (s : State α) (shape : Shape) : State α :=
  let p : Placed α := ⟨shape, s.graphics.binding⟩
  match s.openObject with
  | none => s.drawEntity p
  | some o =>
    let records := (s.objects.get? o.name).getD #[]
    let recorded := p.at_ (o.base.inverse * s.graphics.transform)
    { s with objects := s.objects.set o.name (records.push recorded) }

end State

end SceneConvert
