import SceneConvert.Statement.Value
import SceneConvert.Text.CharacterClass

/-!
# SceneConvert.Statement.Parameters

The parameters of a directive: an ordered collection with one entry for each name, which remembers the
entries that were looked up.

* `add`, `erase`: entries come in the order of their last `add`.
* `get`, `look` and `texture?` mark the entry as used; `contains` and `tag?` do not.
* `unused`: the names that nobody looked up.
-/

namespace SceneConvert

structure Parameter where
  name : String
  /-- The type that the declaration names, such as `float` or `texture`. -/
  tag : Option String
  value : Value
  used : Bool

namespace Parameter

/-- Reads a declaration: of at least two words the first is the tag and the last the name; any other
key is a name without a tag. -/
def declare (key : String) (value : Value) : Parameter :=
  match blankSeparated key with
  | tag :: w :: ws => ⟨(w :: ws).getLast (List.cons_ne_nil w ws), some tag, value, false⟩
  | _ => ⟨key, none, value, false⟩

def single? (p : Parameter) : Option Value := p.value.single?

def display (p : Parameter) : String :=
  let key := match p.tag with
    | some tag => tag ++ " " ++ p.name
    | none => p.name
  " \"" ++ key ++ "\" " ++ p.value.display

end Parameter

structure Parameters where
  entries : List Parameter

namespace Parameters

def empty : Parameters := ⟨[]⟩

def find? (ps : Parameters) (name : String) : Option Parameter :=
  ps.entries.find? fun p => p.name == name

def contains (ps : Parameters) (name : String) : Bool := ps.entries.any fun p => p.name == name

def erase (ps : Parameters) (name : String) : Parameters :=
  ⟨ps.entries.eraseP fun p => p.name == name⟩

/-- Adds an entry at the end, in place of an older one of its name. -/
def add (ps : Parameters) (key : String) (value : Value) : Parameters :=
  let p := Parameter.declare key value
  ⟨(ps.erase p.name).entries ++ [p]⟩

/-- Marks the first entry that `which` selects as used. -/
def mark (ps : Parameters) (which : Parameter → Bool) : Parameters :=
  ⟨go ps.entries⟩
where
  go : List Parameter → List Parameter
    | [] => []
    | p :: rest => if which p then { p with used := true } :: rest else p :: go rest

def get (ps : Parameters) (name : String) : Option Parameter × Parameters :=
  (ps.find? name, ps.mark fun p => p.name == name)

/-- Looks an entry up, marks it, and reads its value. -/
def look {β : Type} (ps : Parameters) (name : String) (read : Value → Option β) :
    Option β × Parameters :=
  ((ps.get name).1.bind fun p => read p.value, (ps.get name).2)

def tag? (ps : Parameters) (name : String) : Option String := (ps.find? name).bind Parameter.tag

/-- The texture that an entry with the tag `texture` names; such an entry is marked. -/
def texture? (ps : Parameters) (name : String) : Option String × Parameters :=
  let which (p : Parameter) : Bool := p.name == name && p.tag == some "texture"
  ((ps.entries.find? which).bind fun p => p.value.word?, ps.mark which)

/-- The first entry without a tag, marked. -/
def untagged (ps : Parameters) : Option Parameter × Parameters :=
  let which (p : Parameter) : Bool := p.tag.isNone
  (ps.entries.find? which, ps.mark which)

def unused (ps : Parameters) : List String :=
  (ps.entries.filter fun p => !p.used).map Parameter.name

def display (ps : Parameters) : String := String.join (ps.entries.map Parameter.display)

end Parameters

end SceneConvert
