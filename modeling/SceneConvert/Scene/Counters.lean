/-!
# SceneConvert.Scene.Counters

Names made by counting. Each kind of thing counts for itself.
-/

namespace SceneConvert

inductive Counter where
  | material
  | texture
  | spectrum
  | shape
  | light
  | emission
  | mesh
  deriving Repr, DecidableEq

namespace Counter

def label : Counter → String
  | material => "material"
  | texture => "texture"
  | spectrum => "spectrum"
  | shape => "shape"
  | light => "light"
  | emission => "emission"
  | mesh => "mesh"

/-- The name with the number `n`, counted from zero. -/
def name (c : Counter) (n : Nat) : String := c.label ++ "_" ++ toString n

end Counter

structure Counters where
  material : Nat := 0
  texture : Nat := 0
  spectrum : Nat := 0
  shape : Nat := 0
  light : Nat := 0
  emission : Nat := 0
  mesh : Nat := 0
  deriving Repr, DecidableEq

namespace Counters

def get (cs : Counters) : Counter → Nat
  | .material => cs.material
  | .texture => cs.texture
  | .spectrum => cs.spectrum
  | .shape => cs.shape
  | .light => cs.light
  | .emission => cs.emission
  | .mesh => cs.mesh

def add (cs : Counters) (n : Nat) : Counter → Counters
  | .material => { cs with material := cs.material + n }
  | .texture => { cs with texture := cs.texture + n }
  | .spectrum => { cs with spectrum := cs.spectrum + n }
  | .shape => { cs with shape := cs.shape + n }
  | .light => { cs with light := cs.light + n }
  | .emission => { cs with emission := cs.emission + n }
  | .mesh => { cs with mesh := cs.mesh + n }

def next (cs : Counters) (c : Counter) : String := c.name (cs.get c)

theorem get_add (cs : Counters) (n : Nat) (c d : Counter) :
    (cs.add n c).get d = if c = d then cs.get d + n else cs.get d := by
  cases c <;> cases d <;> simp [add, get]

end Counters

end SceneConvert
