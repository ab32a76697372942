import SceneConvert.Command.Arguments
import SceneConvert.Conversion.Delivery

/-!
# SceneConvert.Command.Execute

What the program does, as a function of its arguments and of the files there are.

* `coloredLine`: an entry of the journal on a terminal.
* `execute`: the exit status, the two output streams, and the files afterwards.
-/

namespace SceneConvert

inductive Status where
  | succeeded
  | failed
  /-- The arguments make no sense. -/
  | misused
  /-- The conversion stopped before its end. -/
  | halted
  deriving Repr, DecidableEq

def Status.code : Status → Nat
  | succeeded => 0
  | failed | misused => 1
  | halted => 101

structure Outcome where
  status : Status
  stdout : String
  stderr : String
  tree : FileTree

def versionText : String := "pbrt2prc 0.1.0\n"

def helpText : String :=
  "Translates PBRT scene files into PearRay .prc files\n\nUSAGE:\n    pbrt2prc [OPTIONS] <input>\n"

def Level.colors : Level → Nat × Nat
  | error => (31, 31)
  | warn => (33, 33)
  | info => (37, 32)
  | debug => (37, 37)

def colorCode (color : Nat) : String := "\x1b[" ++ toString color ++ "m"

def coloredLine (n : Note) : String :=
  let (line, level) := n.level.colors
  colorCode line ++ "[" ++ colorCode level ++ n.level.label ++ colorCode 0 ++ "] " ++ n.message ++
    colorCode 0 ++ "\n"

namespace Arguments

def level (a : Arguments) : Level := if a.verbose then .debug else if a.quiet then .warn else .info

def logFile (a : Arguments) : Path := a.logDirectory.join ⟨"pbrt2prc.log"⟩

def appendLog (a : Arguments) (t : FileTree) (journal : Journal) : FileTree :=
  match t.append a.logFile (journal.text a.level).toUTF8 with
  | .ok t => t
  | .error _ => t

def printed (a : Arguments) (journal : Journal) : String :=
  if a.logToStderr then String.join ((journal.upTo a.level).map coloredLine) else ""

/-- The end of a run whose journal is `journal`, the first `logged` entries being in the log. -/
def conclude (a : Arguments) (t : FileTree) (logged : Nat) (journal : Journal) (status : Status)
    (message : String) : Outcome where
  status := status
  stdout := ""
  stderr := a.printed journal ++ message
  tree := a.appendLog t (journal.extract logged journal.size)

def closing (diagnostics : Nat) : Remark :=
  if 0 < diagnostics then .finishedWith diagnostics else .finished

def log? (a : Arguments) (t : FileTree) : Option LogFile :=
  match t.locate a.logFile with
  | .ok place => some ⟨place, a.level⟩
  | .error _ => none

/-- Converts the input and writes the results; `t` has the log and the output directory. A scene may
read the log that it is filling. -/
def convert (a : Arguments) (t : FileTree) (before : Journal) : Outcome :=
  let ctx := { Context.of a.options t a.input with log := a.log? t }
  match (State.ofInput ctx : Except FileError (State Float32)) with
  | .error e =>
    a.conclude t before.size before .failed (Failure.report ⟨.readScene a.input, e⟩)
  | .ok s =>
    match Conversion.ending ctx s with
    | .error journal => a.conclude t before.size (before ++ journal) .halted ""
    | .ok c =>
      let written := c.writeTo a.output t
      let journal := before ++ c.journal ++ written.journal
      match written.outcome with
      | .error f => a.conclude written.tree before.size journal .failed f.report
      | .ok failed =>
        let count := c.diagnostics.length + failed.length
        let journal := journal.push (.remark (closing count))
        a.conclude written.tree before.size journal .succeeded ""

def opening (a : Arguments) : Journal :=
  if a.options.meshThreshold = 0 then #[.remark .thresholdZero] else #[]

/-- Opens the log, makes the output directory, and converts the input. -/
def execute (a : Arguments) (t : FileTree) : Outcome :=
  match t.append a.logFile ByteArray.empty with
  | .error e => ⟨.failed, "", Failure.report ⟨.openLog a.logFile, e⟩, t⟩
  | .ok t =>
    let before := a.opening
    let t := a.appendLog t before
    match t.makeDirectories a.output with
    | (t, some e) =>
      a.conclude t before.size before .failed (Failure.report ⟨.makeOutputDirectory a.output, e⟩)
    | (t, none) => a.convert t before

end Arguments

def execute (args : List String) (t : FileTree) : Outcome :=
  match Arguments.ofList args with
  | .ok a => a.execute t
  | .error .help => ⟨.succeeded, helpText, "", t⟩
  | .error .version => ⟨.succeeded, versionText, "", t⟩
  | .error .misuse => ⟨.misused, "", "error: the arguments make no sense\n\n" ++ helpText, t⟩

end SceneConvert
