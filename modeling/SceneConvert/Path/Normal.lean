import SceneConvert.Path.Basic

/-!
# SceneConvert.Path.Normal

The normal form of a path: `.` and `..` are resolved by looking at the path alone.

* `normalStep`, `normalComponents`: the components of the normal form.
* `normalize`: the path written from them, `.` when there is none.
-/

namespace SceneConvert

namespace Path

/-- Adds a component to a normal form, given by its components from the last to the first. A `..`
takes back a name, stays at the root, and is kept where nothing is left to take back. -/
def normalStep : List Component → Component → List Component
  | out, .current => out
  | .name _ :: out, .parent => out
  | .root :: out, .parent => .root :: out
  | out, .parent => .parent :: out
  | out, c => c :: out

def normalComponents (cs : List Component) : List Component := (cs.foldl normalStep []).reverse

def normalize (p : Path) : Path :=
  match normalComponents p.components with
  | [] => ⟨"."⟩
  | cs => ofComponents cs

end Path

end SceneConvert
