import NetDiagram.Span

/-!
# Diagnostics

A diagnostic tells what is wrong with a document, how badly, and where.  It has a message, an
optional code, labels at places of the text and an optional hint.
-/

namespace NetDiagram

/-- How bad a finding is. -/
inductive Severity where
  | error
  | warning
deriving DecidableEq, Repr

/-- The word for the severity. -/
def Severity.name : Severity → String
  | error => "error"
  | warning => "warning"

/-- The kinds of findings. -/
inductive Code where
  | malformed
  | duplicateId
  | noEntrance
  | noModel
  | badConnection
  | cyclicGraph
  | inlineInFlow
  | missingArgument
  | unresolvedReference
  | cyclicReference
  | unusedLayer
  | unreleasedModel
  | coveredFile
  | forwardReference
deriving DecidableEq, Repr

namespace Code

/-- All codes with their names. -/
def names : List (Code × String) :=
  [(malformed, "E001"), (duplicateId, "E002"), (noEntrance, "E100"), (noModel, "E101"),
    (badConnection, "E200"), (cyclicGraph, "E201"), (inlineInFlow, "E202"),
    (missingArgument, "E300"), (unresolvedReference, "E301"), (cyclicReference, "E302"),
    (unusedLayer, "W001"), (unreleasedModel, "W002"), (coveredFile, "W003"),
    (forwardReference, "W004")]

/-- The name of the code. -/
def name (c : Code) : String :=
  (names.lookup c).getD ""

/-- The code of a given name. -/
def ofName? (s : String) : Option Code :=
  (names.find? (·.2 == s)).map (·.1)

/-- What the code stands for. -/
def description : Code → String
  | malformed => "malformed document"
  | duplicateId => "duplicate entity id"
  | noEntrance => "missing input"
  | noModel => "missing model"
  | badConnection => "missing necessary connection"
  | cyclicGraph => "cyclic graph"
  | inlineInFlow => "inline layer in data flow"
  | missingArgument => "missing required argument"
  | unresolvedReference => "unresolved argument reference"
  | cyclicReference => "cyclic argument reference"
  | unusedLayer => "unused layer"
  | unreleasedModel => "unreleased model"
  | coveredFile => "existing file covered"
  | forwardReference => "forward layer reference"

/-- The severity of what the code stands for. -/
def severity : Code → Severity
  | unusedLayer | unreleasedModel | coveredFile | forwardReference => .warning
  | _ => .error

end Code

/-- A remark at a place of the text. -/
structure Label where
  span : Span
  message : String
  primary : Bool
deriving DecidableEq, Repr

/-- A finding. -/
structure Diagnostic where
  severity : Severity
  code : Option Code := none
  message : String
  labels : List Label := []
  help : Option String := none
deriving DecidableEq, Repr

namespace Diagnostic

/-- A finding of a given kind. -/
def ofCode (code : Code) (message : String) : Diagnostic where
  severity := code.severity
  code := some code
  message := message

/-- Adds a label at a place, if there is one. -/
def label (d : Diagnostic) (primary : Bool) (span : Option Span) (message : String) :
    Diagnostic :=
  match span with
  | some span => { d with labels := d.labels ++ [⟨span, message, primary⟩] }
  | none => d

/-- Adds the main label at a place, if there is one. -/
def mark (d : Diagnostic) (span : Option Span) (message : String) : Diagnostic :=
  d.label true span message

/-- Adds a further label at a place, if there is one. -/
def alsoMark (d : Diagnostic) (span : Option Span) (message : String) : Diagnostic :=
  d.label false span message

/-- Adds a hint. -/
def hint (d : Diagnostic) (help : String) : Diagnostic :=
  { d with help := some help }

/-- The finding in one line: its severity, its code and its message. -/
def headline (d : Diagnostic) : String :=
  let code := match d.code with
    | some code => "[" ++ code.name ++ "]"
    | none => ""
  d.severity.name ++ code ++ ": " ++ d.message

end Diagnostic

end NetDiagram
