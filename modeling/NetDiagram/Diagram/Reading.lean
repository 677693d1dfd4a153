import NetDiagram.Diagnostic
import NetDiagram.Diagram.Declaration
import NetDiagram.Diagram.Document
import NetDiagram.Toml.Parse

/-!
# Reading a document

A document is read from a TOML text.  Its entities stand in the order in which they are declared
in the text, whatever their kinds.
-/

namespace NetDiagram

/-- Why a table of values cannot be read. -/
inductive ReadError where
  /-- The text is no TOML text. -/
  | malformed (error : Toml.SyntaxError)
  /-- Some value does not fit. -/
  | misfit (misfit : Record.Misfit)

namespace ReadError

/-- The error in words.  All errors of syntax are worded alike. -/
def message : ReadError → String
  | malformed _ => "<toml syntax>"
  | misfit m => m.cause.message

/-- The place of the error; errors of syntax have none. -/
def span? : ReadError → Option Span
  | malformed _ => none
  | misfit m => m.span

end ReadError

/-- Reads a value of a given type from a TOML text. -/
def readText {α : Type} (decode : Record.Decoder α) (source : String) : Except ReadError α :=
  match Toml.parse source with
  | .error e => .error (.malformed e)
  | .ok node =>
    match decode node with
    | .error m => .error (.misfit m)
    | .ok value => .ok value

/-- Why a document cannot be read. -/
inductive LoadError where
  | unreadable (error : ReadError)
  /-- Two declarations have the same id. -/
  | duplicateId (id : NodeId) (again first : Option Span)

/-- The error in words. -/
def LoadError.diagnostic : LoadError → Diagnostic
  | unreadable e =>
    (Diagnostic.ofCode .malformed ("malformed document: " ++ e.message)).mark e.span?
      "invalid here"
  | duplicateId id again first =>
    ((Diagnostic.ofCode .duplicateId ("duplicate entity id `" ++ id.text ++ "`")).mark again
      "declared again here").alsoMark first "first declared here"
    |>.hint "every layer, model, unit, placeholder and note needs its own id"

namespace Document

/-- The byte offset at which the declaration of an entity starts. -/
def declaredAt (e : Entity) : Nat :=
  (e.span.map Span.start).getD 0

/-- The entities in the order of their declarations. -/
def inTextOrder (es : List Entity) : List Entity :=
  es.mergeSort fun a b => declaredAt a ≤ declaredAt b

/-- Adds entities one after the other. -/
def insertAll (d : Document) : List Entity → Except LoadError Document
  | [] => .ok d
  | e :: es =>
    match d.insert e with
    | .ok d => d.insertAll es
    | .error _ => .error (.duplicateId e.id e.span ((d.get? e.id).bind Entity.span))

/-- The document of the given declarations. -/
def ofDeclarations (es : List Entity) : Except LoadError Document :=
  empty.insertAll (inTextOrder es)

/-- Reads a document. -/
def parse (source : String) : Except LoadError Document :=
  match readText Declaration.entities source with
  | .error e => .error (.unreadable e)
  | .ok es => ofDeclarations es

end Document

end NetDiagram
