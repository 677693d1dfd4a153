import NetDiagram.Command.Options
import NetDiagram.Module.Generated
import NetDiagram.Module.SettingsFile

/-!
# Running the command

The command looks for settings, reads a document, generates its module and writes it into a
directory.  It is written over any file system.
-/

namespace NetDiagram.Command

open Files (FileError FileStore)
open NetDiagram.Module (Settings)

/-- What the command knows of where it runs. -/
structure Host where
  /-- Today's date. -/
  date : String
  /-- The path of the user's settings file. -/
  settingsPath : Option String

/-- The result of a run. -/
structure Outcome where
  /-- The path of the module. -/
  path : String
  /-- The text of the document. -/
  source : String
  warnings : List Diagnostic

/-- The reports of the warnings. -/
def Outcome.reports (o : Outcome) : List Report :=
  o.warnings.map (.finding · (some o.source))

/-- Where settings are looked for first. -/
def localSettingsPath : String :=
  "kmb/config.toml"

section

variable {m : Type → Type} [Monad m] [FileStore m]

/-- Passes a failed operation on files on. -/
def orFail {α : Type} (wrap : FileError → Failure) (action : m (Except FileError α)) :
    ExceptT Failure m α :=
  ExceptT.mk do
    let result ← action
    return result.mapError wrap

/-- Reads a settings file, which must exist. -/
def loadSettings (path : String) : ExceptT Failure m Settings := do
  unless ← (FileStore.pathExists path : m Bool) do
    throw (.files (.other ("Missing configuration file: " ++ path)))
  let source ← orFail .files (FileStore.readText path)
  match Settings.parse source with
  | .ok settings => return settings
  | .error e =>
    throw (.files (.other
      ("Failed to parse TOML configuration `" ++ path ++ "`: " ++ e.message)))

/-- Finds the settings: those of the given file, or those of the first file that exists, or the
defaults. -/
def findSettings (given : Option String) (candidates : List String) :
    ExceptT Failure m Settings :=
  match given, candidates with
  | some path, _ => loadSettings path
  | none, [] => return {}
  | none, path :: rest => do
    if ← (FileStore.pathExists path : m Bool) then loadSettings path else findSettings none rest

/-- Generates the module of a document and writes it. -/
def run (host : Host) (o : Options) : ExceptT Failure m Outcome := do
  let settings ← findSettings o.config (localSettingsPath :: host.settingsPath.toList)
  let settings := settings.override o.name o.author o.comment
  let source ← orFail .files (FileStore.readText o.input)
  let generated ← ExceptT.mk (pure (Module.build settings host.date source))
  orFail .files (FileStore.makeDirectories o.output)
  let (written, generated) ←
    (Module.exportTo o.output generated : m (Except Failure String × Module.Generated))
  let path ← ExceptT.mk (pure written)
  return ⟨path, source, generated.warnings⟩

end

end NetDiagram.Command
