/-!
# SceneConvert.Document.Block

Indented text: lines, and forms that enclose lines.

* `Indent.text`, `Line.render`: what depth looks like. `Line.fits` says whether there is room for it.
* `Block.lines`: the lines of a block at a depth. A form stands on a line of its own, its body one
  level deeper, and its closing parenthesis on the level of the form.
* `Sheet`: the same text put together line by line. Leaving a level is refused at depth zero.
* `Sheet.close?_foldl_open`: a form can be written piece by piece.
-/

namespace SceneConvert

/-- What one level of depth looks like. -/
inductive Indent where
  | tab
  | spaces (n : Nat)
  deriving Repr, DecidableEq

namespace Indent

def text (depth : Nat) : Indent → String
  | tab => String.ofList (List.replicate depth '\t')
  | spaces n => String.ofList (List.replicate (depth * n) ' ')

def width : Indent → Nat
  | tab => 1
  | spaces n => n

/-- The widest level that a text has room for. -/
def maxWidth : Nat := Nat.pow 2 40

end Indent

structure Line where
  depth : Nat
  text : String
  deriving Repr, DecidableEq

def Line.render (indent : Indent) (l : Line) : String :=
  indent.text l.depth ++ l.text ++ "\n"

def Line.fits (indent : Indent) (l : Line) : Bool :=
  l.depth == 0 || indent.width ≤ Indent.maxWidth

def renderLines (indent : Indent) (ls : List Line) : String :=
  String.join (ls.map (Line.render indent))

inductive Block where
  | line (text : String)
  | form (head : String) (body : List Block)

namespace Block

def lines (depth : Nat) : Block → List Line
  | line text => [⟨depth, text⟩]
  | form head body => ⟨depth, "(" ++ head⟩ :: linesOf (depth + 1) body ++ [⟨depth, ")"⟩]
where
  linesOf (depth : Nat) : List Block → List Line
    | [] => []
    | b :: bs => b.lines depth ++ linesOf depth bs

end Block

/-- A text in the making: its lines so far and the depth of the next one. -/
structure Sheet where
  lines : Array Line
  depth : Nat

namespace Sheet

def empty : Sheet := ⟨#[], 0⟩

def put (s : Sheet) (text : String) : Sheet := { s with lines := s.lines.push ⟨s.depth, text⟩ }

def enter (s : Sheet) : Sheet := { s with depth := s.depth + 1 }

def leave? (s : Sheet) : Option Sheet :=
  match s.depth with
  | 0 => none
  | d + 1 => some { s with depth := d }

def open_ (s : Sheet) (head : String) : Sheet := (s.put ("(" ++ head)).enter

def close? (s : Sheet) : Option Sheet := s.leave?.map (·.put ")")

def render (indent : Indent) (s : Sheet) : String := renderLines indent s.lines.toList

def fits (indent : Indent) (s : Sheet) : Bool := s.lines.all (Line.fits indent)

/-- A whole block; the depth is the same afterwards. -/
def putBlock (s : Sheet) (b : Block) : Sheet := { s with lines := s.lines ++ b.lines s.depth }

theorem foldl_putBlock (s : Sheet) (bs : List Block) :
    bs.foldl putBlock s = { s with lines := s.lines ++ Block.lines.linesOf s.depth bs } := by
  induction bs generalizing s with
  | nil => simp [Block.lines.linesOf]
  | cons b bs ih =>
    rw [List.foldl_cons, ih]
    simp only [putBlock, Block.lines.linesOf]
    congr 1
    exact Array.ext' (by simp)

/-- Opening a form, writing its body and closing it is writing the form. -/
theorem close?_foldl_open (s : Sheet) (head : String) (body : List Block) :
    (body.foldl putBlock (s.open_ head)).close? = some (s.putBlock (.form head body)) := by
  simp only [foldl_putBlock, open_, put, enter, close?, leave?, putBlock, Block.lines, Option.map_some]
  congr 2
  apply Array.ext'
  simp

end Sheet

end SceneConvert
