import NetDiagram.Diagram.Reading
import NetDiagram.Failure
import NetDiagram.Module.Source

/-!
# Generating and exporting a module

A document is compiled and its module written as a text; the text can then be put into a file.
Putting it over an existing file is allowed and noted.
-/

namespace NetDiagram.Module

/-- A module and what it was generated from. -/
structure Generated where
  /-- The name of the file for the module. -/
  fileName : String
  /-- The text of the module. -/
  code : String
  compilation : Flow.Compilation

/-- Numbers warnings and puts each on a line of its own. -/
def warningReport (warnings : List Diagnostic) : String :=
  ";\n".intercalate
    (warnings.zipIdx.map fun (d, i) => "Warning " ++ toString (i + 1) ++ ": " ++ d.message)

namespace Generated

/-- The warnings in the order in which they arose. -/
def warnings (g : Generated) : List Diagnostic :=
  g.compilation.notices.map Flow.Notice.diagnostic

/-- Adds a notice. -/
def addNotice (g : Generated) (notice : Flow.Notice) : Generated :=
  { g with
    compilation := { g.compilation with notices := g.compilation.notices ++ [notice] } }

end Generated

/-- Generates the module of a document. -/
def generate (s : Settings) (date : String) (d : Document) : Except Failure Generated :=
  match Flow.compile d with
  | .error fault => .error (.compile fault.diagnostic none)
  | .ok c => .ok ⟨fileName (title s.name), moduleText s date c, c⟩

/-- Reads a document and generates its module. -/
def build (s : Settings) (date source : String) : Except Failure Generated :=
  match Document.parse source with
  | .error e => .error (.load e.diagnostic source)
  | .ok d => (generate s date d).mapError (Failure.withSource source)

/-- Writes a module into a directory and gives the path of its file.  That a file was there before
is noted even if writing fails. -/
def exportTo {m : Type → Type} [Monad m] [Files.FileStore m] (dir : String) (g : Generated) :
    m (Except Failure String × Generated) := do
  let path := Files.joinPath dir g.fileName
  let covered ← Files.FileStore.pathExists path
  let g := if covered then g.addNotice (.coveredFile path) else g
  match ← Files.FileStore.writeText path g.code with
  | .error cause => return (.error (.exporting path cause), g)
  | .ok _ => return (.ok path, g)

end NetDiagram.Module
