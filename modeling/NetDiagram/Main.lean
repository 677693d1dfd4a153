import NetDiagram.Command.Run
import Std.Time.Zoned

/-!
# The command

The command runs over the files of the machine.  The path of the written module goes to the
output, and warnings and failures go to the error output.
-/

namespace NetDiagram.Command

open Files (FileError FileStore)

/-! ## Files of the machine -/

/-- Why the machine refused an operation. -/
def fileError : IO.Error → FileError
  | .noFileOrDirectory _ _ _ => .notFound
  | .alreadyExists _ _ _ => .alreadyExists
  | .inappropriateType _ code details =>
    if code == 20 then .notADirectory
    else if code == 21 then .isADirectory
    else .other details
  | .invalidArgument _ code details => if code == 36 then .nameTooLong else .other details
  | .permissionDenied _ code details => if code == 13 then .permissionDenied else .other details
  | .resourceExhausted _ code details => if code == 28 then .noSpace else .other details
  | e => .other (toString e)

/-- Carries an operation out. -/
def attempt {α : Type} (action : IO α) : IO (Except FileError α) := do
  try
    return .ok (← action)
  catch e =>
    return .error (fileError e)

/-- Whether there is a file or a directory at a path. -/
def pathExistsOnDisk (path : String) : IO Bool := do
  try
    let _ ← IO.FS.realPath path
    return true
  catch _ =>
    return false

instance : FileStore IO where
  pathExists := pathExistsOnDisk
  readText path := do
    match ← attempt (IO.FS.readBinFile path) with
    | .error e => return .error e
    | .ok content =>
      match String.fromUTF8? content with
      | some s => return .ok s
      | none => return .error .notText
  makeDirectories path :=
    if path == "" then return .ok () else attempt (IO.FS.createDirAll path)
  writeText path content := attempt (IO.FS.writeFile path content)

/-! ## The machine -/

/-- Today's date, as it stands in the header of a module. -/
def today : IO String := do
  let date ← Std.Time.PlainDate.now
  let pair := fun (n : Nat) => (if n < 10 then "0" else "") ++ toString n
  let year := date.year.toInt.natAbs % 100
  return pair year ++ "/" ++ pair date.month.val.natAbs ++ "/" ++ pair date.day.val.natAbs

/-- The path of the user's settings file. -/
def userSettingsPath : IO (Option String) := do
  let dir ← match ← IO.getEnv "XDG_CONFIG_HOME" with
    | some dir =>
      if dir.startsWith "/" then pure (some dir)
      else (·.map (Files.joinPath · ".config")) <$> IO.getEnv "HOME"
    | none => (·.map (Files.joinPath · ".config")) <$> IO.getEnv "HOME"
  return dir.map (Files.joinPath · "kmb/config.toml")

/-! ## Output -/

/-- The help text. -/
def usage : String :=
  "Usage: kmb [OPTIONS] <INPUT>\n\n" ++
  "Arguments:\n" ++
  "  <INPUT>  Path to the input document\n\n" ++
  "Options:\n" ++
  "  -o, --output <OUTPUT>        [default: .]\n" ++
  "  -n, --name <NAME>\n" ++
  "  -a, --author <AUTHOR>\n" ++
  "  -m, --comment <COMMENT>\n" ++
  "  -c, --config <CONFIG>\n" ++
  "      --log-level <LOG_LEVEL>  [default: info]\n" ++
  "  -h, --help                   Print help\n" ++
  "  -V, --version                Print version"

/-- The version. -/
def version : String :=
  "kmb 0.1.0"

/-- A refusal in words. -/
def Refusal.message : Refusal → String
  | missingInput => "error: the path of the input document is missing"
  | unknown word => "error: unexpected argument '" ++ word ++ "' found"
  | missingValue _ => "error: an option lacks its value"
  | repeated _ => "error: an option is given more than once"
  | needlessValue word => "error: unexpected value in '" ++ word ++ "'"
  | help => usage
  | version => Command.version

/-- A report as it is shown. -/
def reportLines (r : Report) : List String :=
  let code := (r.code?.map (· ++ ": ")).getD ""
  (code ++ r.text) ::
    (r.labels.map fun l =>
      "  " ++ toString l.span.start ++ ".." ++ toString l.span.stop ++ ": " ++ l.message) ++
    (r.help?.map ("  help: " ++ ·)).toList

/-- Shows a report on the error output. -/
def showReport (r : Report) : IO Unit :=
  (reportLines r).forM fun line => IO.eprintln line

/-- Runs the command with the given options. -/
def execute (options : Options) : IO UInt32 := do
  let host : Host := { date := ← today, settingsPath := ← userSettingsPath }
  match ← (run host options).run with
  | .ok outcome =>
    outcome.reports.forM showReport
    IO.println outcome.path
    return 0
  | .error failure =>
    showReport failure.report
    return 1

end NetDiagram.Command

open NetDiagram.Command in
/-- Runs the command with the words of the command line. -/
def main (words : List String) : IO UInt32 := do
  match Options.parse words with
  | .ok options => execute options
  | .error .help =>
    IO.println usage
    return 0
  | .error .version =>
    IO.println version
    return 0
  | .error refusal =>
    IO.eprintln refusal.message
    return 2
