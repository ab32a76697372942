import SceneConvert.Conversion.Options

/-!
# SceneConvert.Command.Arguments

The arguments of the program.

* `Switch`, `ValueOption`: what can be given, by long and by short names.
* `Session`: reading the arguments from left to right. A request for help or for the version ends it at
  once.
* `Arguments.ofList`: the arguments of a command line, or why the program does not start.
-/

namespace SceneConvert

/-- An argument that is given or not. -/
inductive Switch where
  | quiet
  | verbose
  | logToStderr
  | skipMesh
  | skipCurve
  | skipPrim
  | skipInstance
  | skipLight
  | skipMat
  | skipTex
  | skipCamera
  | skipWorld
  | skipRepetitiveIncludes
  | singleFile
  | noCollapseParams
  | help
  | version
  deriving Repr, DecidableEq

namespace Switch

def longNames : List (String × Switch) :=
  [("quiet", quiet), ("verbose", verbose), ("logtostderr", logToStderr), ("skip-mesh", skipMesh),
   ("skip-curve", skipCurve), ("skip-prim", skipPrim), ("skip-instance", skipInstance),
   ("skip-light", skipLight), ("skip-mat", skipMat), ("skip-tex", skipTex),
   ("skip-camera", skipCamera), ("skip-world", skipWorld),
   ("skip-repetitive-includes", skipRepetitiveIncludes), ("single-file", singleFile),
   ("no-collapse-params", noCollapseParams), ("help", help), ("version", version)]

def shortNames : List (Char × Switch) :=
  [('q', quiet), ('v', verbose), ('e', logToStderr), ('h', help), ('V', version)]

end Switch

inductive ValueOption where
  | output
  | logDirectory
  | includeOffset
  | meshThreshold
  | indentSpaces
  deriving Repr, DecidableEq

namespace ValueOption

def longNames : List (String × ValueOption) :=
  [("output", output), ("logdir", logDirectory), ("include-offset", includeOffset),
   ("mesh-threshold", meshThreshold), ("indent-spaces", indentSpaces)]

def shortNames : List (Char × ValueOption) := [('o', output)]

def hasDefault : ValueOption → Bool
  | output | includeOffset | meshThreshold => true
  | logDirectory | indentSpaces => false

end ValueOption

/-- Why the program does not start. -/
inductive Dismissal where
  | help
  | version
  | misuse
  deriving Repr, DecidableEq

structure Session where
  switches : List Switch := []
  options : List ValueOption := []
  values : List (ValueOption × String) := []
  /-- The option that the next argument is the value of, unless it starts a new one. -/
  pending : Option ValueOption := none
  /-- Whether all arguments that follow are inputs. -/
  inputsOnly : Bool := false
  input : Option String := none

namespace Session

def addSwitch (s : Session) (w : Switch) : Except Dismissal Session :=
  match w with
  | .help => .error .help
  | .version => .error .version
  | w => .ok { s with switches := s.switches ++ [w], pending := none }

/-- Adds an option, with the value that came in the same argument, if one did. Equals signs before a
value are dropped. -/
def addOption (s : Session) (o : ValueOption) (value : Option (List Char)) : Session :=
  let s := { s with options := s.options ++ [o] }
  match value with
  | none => { s with pending := some o }
  | some cs =>
    let text := String.ofList (cs.dropWhile (· == '='))
    { s with values := s.values ++ [(o, text)], pending := none }

/-- An argument with a long name, behind its hyphens. A value given to a switch is ignored. -/
def addLong (s : Session) (cs : List Char) : Except Dismissal Session :=
  let name := String.ofList (cs.takeWhile (· != '='))
  let value := if cs.contains '=' then some (cs.dropWhile (· != '=')).tail else none
  match ValueOption.longNames.lookup name, Switch.longNames.lookup name with
  | some o, _ => .ok (s.addOption o value)
  | none, some w => s.addSwitch w
  | none, none => .error .misuse

/-- An argument of short names, behind its hyphen: switches, and perhaps an option to which all that
follows belongs. -/
def addShort (s : Session) : List Char → Except Dismissal Session
  | [] => .ok s
  | c :: cs =>
    match ValueOption.shortNames.lookup c, Switch.shortNames.lookup c with
    | some o, _ => .ok (s.addOption o (if cs.isEmpty then none else some cs))
    | none, some w => (s.addSwitch w).bind fun s => s.addShort cs
    | none, none => .error .misuse

/-- An argument without a name: the value that is waited for, or the input. -/
def addPlain (s : Session) (arg : String) : Except Dismissal Session :=
  match s.inputsOnly, s.pending, s.input with
  | false, some o, _ => .ok { s with values := s.values ++ [(o, arg)], pending := none }
  | _, _, none => .ok { s with input := some arg }
  | _, _, some _ => .error .misuse

/-- One more argument. A single hyphen is an argument without a name. -/
def add (s : Session) (arg : String) : Except Dismissal Session :=
  if s.inputsOnly then s.addPlain arg
  else match arg.toList with
    | ['-', '-'] => .ok { s with inputsOnly := true }
    | '-' :: '-' :: cs => s.addLong (cs.dropWhile (· == '-'))
    | '-' :: c :: cs => s.addShort (c :: cs)
    | _ => s.addPlain arg

end Session

/-- A command line that the program can run with. -/
structure Arguments where
  input : Path
  output : Path
  quiet : Bool
  verbose : Bool
  logDirectory : Path
  logToStderr : Bool
  options : Options

namespace Arguments

/-- A count, perhaps with a plus sign, below `2 ^ 64`. -/
def count? (text : String) : Option Nat :=
  let digits := match text.toList with
    | '+' :: cs => cs
    | cs => cs
  if digits.isEmpty || !digits.all Char.isDigit then none
  else
    let n := Nat.ofDigitChars 10 digits 0
    if n < Nat.pow 2 64 then some n else none

/-- The value of a counting option: none if it was not given, an error if it is not a count. -/
def count (s : Session) (o : ValueOption) : Except Dismissal (Option Nat) :=
  match s.values.lookup o with
  | none => .ok none
  | some text =>
    match count? text with
    | some n => .ok (some n)
    | none => .error .misuse

def optionsOf (s : Session) (threshold spaces : Option Nat) : Options :=
  let given (w : Switch) : Bool := s.switches.contains w
  let default : Options := {}
  { includeOffset := ((s.values.lookup .includeOffset).map Path.mk).getD default.includeOffset
    skipMeshes := given .skipMesh
    skipCurves := given .skipCurve
    skipPrimitives := given .skipPrim
    skipInstances := given .skipInstance
    skipLights := given .skipLight
    skipMaterials := given .skipMat
    skipTextures := given .skipTex
    skipCamera := given .skipCamera
    skipWorld := given .skipWorld
    skipRepeatedIncludes := given .skipRepetitiveIncludes
    singleFile := given .singleFile
    meshThreshold := threshold.getD default.meshThreshold
    collapseLists := !given .noCollapseParams
    indent := (spaces.map Indent.spaces).getD default.indent }

def lacksValue (s : Session) : Bool :=
  s.options.any fun o => !o.hasDefault && (s.values.lookup o).isNone

/-- The arguments of a session that has come to its end: there is an input, nothing is given twice, no
value is missing, and counts are counts. -/
def ofSession (s : Session) : Except Dismissal Arguments :=
  if !decide s.switches.Nodup || !decide s.options.Nodup || lacksValue s then .error .misuse
  else match s.input, count s .meshThreshold, count s .indentSpaces with
    | some input, .ok threshold, .ok spaces =>
      .ok {
        input := ⟨input⟩
        output := ⟨(s.values.lookup .output).getD "."⟩
        quiet := s.switches.contains .quiet
        verbose := s.switches.contains .verbose
        logDirectory := ⟨(s.values.lookup .logDirectory).getD "."⟩
        logToStderr := s.switches.contains .logToStderr
        options := optionsOf s threshold spaces }
    | _, _, _ => .error .misuse

def ofList (args : List String) : Except Dismissal Arguments :=
  (args.foldlM Session.add {}).bind ofSession

end Arguments

end SceneConvert
