import SceneConvert.Path.Basic

/-!
# SceneConvert.Report.Diagnostic

What is reported about a piece of input, with its place in the sources.
-/

namespace SceneConvert

inductive Level where
  | error
  | warn
  | info
  | debug
  deriving Repr, DecidableEq

namespace Level

def label : Level → String
  | error => "ERROR"
  | warn => "WARN"
  | info => "INFO"
  | debug => "DEBUG"

/-- Zero for the gravest. -/
def rank : Level → Nat
  | error => 0
  | warn => 1
  | info => 2
  | debug => 3

end Level

/-- Which part of the work a diagnostic comes from. -/
inductive DiagnosticKind where
  | lexical
  | syntactic
  | unsupported
  | semantic
  | stack
  | io
  deriving Repr, DecidableEq

namespace DiagnosticKind

def label : DiagnosticKind → String
  | lexical => "lexical"
  | syntactic => "syntactic"
  | unsupported => "unsupported"
  | semantic => "semantic"
  | stack => "stack"
  | io => "io"

/-- What is skipped on purpose is a warning, everything else an error. -/
def level : DiagnosticKind → Level
  | unsupported | stack => .warn
  | _ => .error

end DiagnosticKind

structure Diagnostic where
  kind : DiagnosticKind
  file : Option Path
  line : Option Nat
  message : String
  deriving Repr, DecidableEq

namespace Diagnostic

/-- Fills in the place unless one is known already. -/
def located (d : Diagnostic) (file : Path) (line : Nat) : Diagnostic :=
  { d with file := some (d.file.getD file), line := some (d.line.getD line) }

def place (d : Diagnostic) : String :=
  match d.file, d.line with
  | some file, some line => file.text ++ ":" ++ toString line ++ ": "
  | some file, none => file.text ++ ": "
  | none, some line => "line " ++ toString line ++ ": "
  | none, none => ""

def display (d : Diagnostic) : String := d.place ++ d.kind.label ++ " error: " ++ d.message

def level (d : Diagnostic) : Level := d.kind.level

end Diagnostic

end SceneConvert
