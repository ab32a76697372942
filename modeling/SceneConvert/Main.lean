import SceneConvert.Command.Mention

/-!
# SceneConvert.Main

The program. What it does is `execute`; here the files that a run looks at are read first, and the
files that it changed are written afterwards.
-/

namespace SceneConvert.Program

/-- What stands at a place of the disk. -/
def nodeOnDisk? (place : Place) : IO (Option Node) := do
  let path := (← IO.currentDir) / (FileTree.pathOf place).text
  if ← path.isDir then return some .directory
  try return some (.file (← IO.FS.readBinFile path))
  catch _ => return none

def load (t : FileTree) (place : Place) : IO FileTree := do
  if (t.node? place).isSome then return t
  match ← nodeOnDisk? place with
  | some node => return t.put place node
  | none => return t

/-- Loads everything on the way along a path. -/
def loadAlong (t : FileTree) (p : Path) : IO FileTree := do
  let mut t := t
  let mut place := t.start p
  for segment in Path.splitSlashes p.text.toList do
    if segment = ['.', '.'] then place := place.dropLast
    else unless Path.isIdle segment do
      place := place ++ [String.ofList segment]
      t ← load t place
  return t

/-- Loads the file at a path, and whatever its strings lead to. -/
partial def explore (t : FileTree) (root p : Path) : IO FileTree := do
  let known := t.nodes.length
  let t ← loadAlong t p
  if t.nodes.length = known then return t
  match t.readText p with
  | .error _ => return t
  | .ok text =>
    let mut t := t
    for q in mentions t root p text do
      t ← explore t root q
    return t

/-- Runs the program on the files that are loaded, and again as long as it would change places that
were not. -/
partial def settle (args : List String) (t : FileTree) : IO (FileTree × Outcome) := do
  let outcome := execute args t
  let mut more := t
  for (place, _) in outcome.tree.changes t do
    more ← load more place
  if more.nodes.length = t.nodes.length then return (t, outcome)
  settle args more

/-- Loads the files for a run with these arguments. -/
def gather (a : Arguments) (t : FileTree) : IO FileTree := do
  let mut t := t
  for p in a.paths do
    t ← loadAlong t p
  let root := t.includeRoot a.input a.options.includeOffset
  t ← loadAlong t root
  match t.readText a.input with
  | .error _ => return t
  | .ok text =>
    for q in mentions t root a.input text do
      t ← explore t root q
    return t

def store (place : Place) (node : Node) : IO Unit := do
  let path := (FileTree.pathOf place).text
  match node with
  | .directory => IO.FS.createDirAll path
  | .file content => IO.FS.writeBinFile path content

end SceneConvert.Program

open SceneConvert SceneConvert.Program in
def main (args : List String) : IO UInt32 := do
  let cwd : Path := ⟨(← IO.currentDir).toString⟩
  let place := (Path.splitSlashes cwd.text.toList).filter (!·.isEmpty) |>.map String.ofList
  let t ← loadAlong ⟨[], place⟩ cwd
  let t ← match Arguments.ofList args with
    | .ok a => gather a t
    | .error _ => pure t
  let (t, outcome) ← settle args t
  for (place, node) in outcome.tree.changes t do
    store place node
  IO.print outcome.stdout
  IO.eprint outcome.stderr
  return UInt32.ofNat outcome.status.code
