import NetDiagram.Diagnostic
import NetDiagram.Files.Basic

/-!
# Failures and reports

A `Failure` is why no module was generated or written.  A `Report` is what a user is shown of a
failure or of a notice: places of the text are shown only where the text is known, since they are
byte offsets into it.
-/

namespace NetDiagram

/-- Why no module was generated or written. -/
inductive Failure where
  /-- A file cannot be read, or a directory cannot be made. -/
  | files (cause : Files.FileError)
  /-- The text is no document. -/
  | load (finding : Diagnostic) (source : String)
  /-- The document cannot be compiled; its text may be unknown. -/
  | compile (finding : Diagnostic) (source : Option String)
  /-- The module cannot be written. -/
  | exporting (path : String) (cause : Files.FileError)
deriving DecidableEq, Repr

namespace Failure

/-- Adds the text of the document to a failure that lacks it. -/
def withSource (source : String) : Failure → Failure
  | compile finding none => compile finding (some source)
  | failure => failure

/-- The text of the document, if the failure is about a document. -/
def source? : Failure → Option String
  | load _ source => some source
  | compile _ source => source
  | files _ | exporting _ _ => none

/-- The failure in one line. -/
def message : Failure → String
  | files cause => "I/O error: " ++ cause.message
  | load finding _ => finding.headline
  | compile finding _ => finding.headline
  | exporting path cause =>
    "Export error: failed to write `" ++ path ++ "`: " ++ cause.message

end Failure

/-- What a user is shown. -/
inductive Report where
  /-- A finding about a document, with the text of the document if it is known. -/
  | finding (finding : Diagnostic) (source : Option String)
  /-- A failure that is not about a document. -/
  | trouble (code : String) (message : String)
deriving DecidableEq, Repr

namespace Report

/-- The text of the report. -/
def text : Report → String
  | finding d _ => d.message
  | trouble _ message => message

/-- The name of the kind of what is reported. -/
def code? : Report → Option String
  | finding d _ => d.code.map Code.name
  | trouble code _ => some code

/-- The severity of a finding. -/
def severity? : Report → Option Severity
  | finding d _ => some d.severity
  | trouble _ _ => none

/-- The hint of a finding. -/
def help? : Report → Option String
  | finding d _ => d.help
  | trouble _ _ => none

/-- The text that the labels refer to. -/
def source? : Report → Option String
  | finding _ source => source
  | trouble _ _ => none

/-- The labels that can be shown. -/
def labels : Report → List Label
  | finding d (some _) => d.labels
  | finding _ none | trouble _ _ => []

end Report

/-- The report of a failure. -/
def Failure.report : Failure → Report
  | load finding source => .finding finding (some source)
  | compile finding source => .finding finding source
  | files cause => .trouble "kmb::io" (files cause).message
  | exporting path cause => .trouble "kmb::export" (exporting path cause).message

end NetDiagram
