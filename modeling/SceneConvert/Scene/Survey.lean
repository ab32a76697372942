import SceneConvert.Report.Problem
import SceneConvert.Report.Remark
import SceneConvert.Scene.State
import SceneConvert.Statement.Basic

/-!
# SceneConvert.Scene.Survey

Looking at a directive before anything is changed. A survey reads parameters, collects what there is
to say about them and the sampled spectra that it meets, in order, and either ends with a result or
refuses the directive. The spectra get their names at once.

* `Survey`: the monad.
* `number`, `integer`, `word`, `truth`: the only element of a parameter, or a default.
* `numbers?`, `integers?`, `words?`, `texture?`: other ways to read one.
* `journal`: what was said so far, the findings included.
* `unused`: a remark for every parameter that nobody looked up.
-/

namespace SceneConvert

/-- Values at wavelengths, under a name. -/
structure SampledSpectrum where
  name : String
  wavelengths : List Float32
  values : List Float32

inductive Finding where
  | remark (r : Remark)
  | problem (p : Problem)
  | spectrum (p : SampledSpectrum)

namespace Finding

/-- The journal entry of a finding about a directive at this place, if it has one. -/
def note? (file : Path) (line : Nat) : Finding → Option Note
  | remark r => some (.remark r)
  | problem p => some (.report (p.diagnostic file line))
  | spectrum _ => none

end Finding

structure Findings where
  parameters : Parameters
  items : Array Finding
  /-- The number of the next spectrum. -/
  nextSpectrum : Nat

/-- Why a survey ends without a result. -/
inductive Refusal where
  | problem (p : Problem)
  /-- A number in a mesh file does not fit the range of counts. -/
  | overflow

abbrev Survey := ExceptT Refusal (StateM Findings)

def Findings.start (ps : Parameters) (nextSpectrum : Nat) : Findings := ⟨ps, #[], nextSpectrum⟩

namespace Survey

/-- The result of a survey over some parameters, and what was found on the way. -/
def of {β : Type} (survey : Survey β) (ps : Parameters) (nextSpectrum : Nat) :
    Except Refusal β × Findings :=
  survey.run.run (.start ps nextSpectrum)

def say (f : Finding) : Survey Unit := modify fun s => { s with items := s.items.push f }

def remark (r : Remark) : Survey Unit := say (.remark r)

def report (p : Problem) : Survey Unit := say (.problem p)

def refuse {β : Type} (p : Problem) : Survey β := throw (.problem p)

/-- The value, or a refusal when there is none. -/
def require {β : Type} (p : Problem) : Option β → Survey β
  | some b => pure b
  | none => refuse p

/-- Runs a look-up that marks parameters. -/
def parameters {β : Type} (f : Parameters → β × Parameters) : Survey β := do
  let s ← get
  let (result, ps) := f s.parameters
  set { s with parameters := ps }
  pure result

def parameter? (name : String) : Survey (Option Parameter) := parameters fun ps => ps.get name

def has (name : String) : Survey Bool := parameters fun ps => (ps.contains name, ps)

def look {β : Type} (name : String) (read : Value → Option β) : Survey (Option β) :=
  parameters fun ps => ps.look name read

def number? (name : String) : Survey (Option Float32) := look name Value.number?

def number (name : String) (default : Float32) : Survey Float32 := do
  return (← number? name).getD default

def integer (name : String) (default : Int) : Survey Int := do
  return (← look name Value.integer?).getD default

def word (name default : String) : Survey String := do
  return (← look name Value.word?).getD default

def truth (name : String) (default : Bool) : Survey Bool := do
  return (← look name Value.truth?).getD default

def numbers? (name : String) : Survey (Option (List Float32)) := look name Value.floats?

def integers? (name : String) : Survey (Option (List Int)) := look name Value.integers?

def words? (name : String) : Survey (Option (List String)) := look name Value.texts?

def texture? (name : String) : Survey (Option String) := parameters fun ps => ps.texture? name

/-- The journal as it is now: `s` is the state at the directive. -/
def journal {α : Type} (s : State α) : Survey Journal := do
  return s.journal ++ (← get).items.filterMap (Finding.note? s.location.1 s.location.2)

/-- A remark for every parameter that nobody looked up. -/
def unused : Survey (List Remark) := do
  return (← get).parameters.unused.map .parameterUnused

def spectrum (wavelengths values : List Float32) : Survey String := do
  let s ← get
  let name := Counter.spectrum.name s.nextSpectrum
  set { s with
    items := s.items.push (.spectrum ⟨name, wavelengths, values⟩)
    nextSpectrum := s.nextSpectrum + 1 }
  pure name

end Survey

namespace Statement

/-- The operand, if it is one string. -/
def text? (st : Statement) : Option String := st.operand.bind Value.asText?

/-- The operand, which has to be one string. -/
def text (st : Statement) : Survey String := Survey.require (.textExpected st.word) st.text?

/-- The operand, if it is `count` numbers. -/
def numbers (st : Statement) (count : Nat) : Survey (List Float32) := do
  let values ← Survey.require (.numbersExpected st.word count) (st.operand.bind Value.floats?)
  if values.length = count then pure values
  else Survey.refuse (.numberCount st.word count values.length)

end Statement

end SceneConvert
