import NetDiagram.Flow.Draft
import NetDiagram.Flow.Links

/-!
# Compiling a document

A document is checked first: it needs an entrance and a model, and its output connections have no
cycle.  Then its statements are written, and what was left out is noted: layers that are never
used, and models that are never built.
-/

namespace NetDiagram.Flow

/-! ## Checks -/

/-- The entities that connections join: layers and models, in order. -/
def flowEntities (d : Document) : List Entity :=
  d.entities.filter fun
    | .layer _ | .model _ => true
    | _ => false

/-- The output connections among layers and models, numbered in document order.  Connections to
anything else are left out. -/
def flowLinks (d : Document) : Links (flowEntities d).length where
  arcs := (List.finRange (flowEntities d).length).flatMap fun i =>
    match (flowEntities d).get i with
    | .layer l =>
      (l.output.filterMap fun id => (flowEntities d).findFinIdx? (·.id == id)).map fun j => (i, j)
    | _ => []

/-- Checks that the output connections have no cycle. -/
def checkAcyclic (d : Document) : Except Fault Unit :=
  match (flowLinks d).cycle? with
  | some i => .error (.cyclic ((flowEntities d).get i))
  | none => .ok ()

/-- Checks that there is an entrance and a model, and no cycle. -/
def validate (d : Document) : Except Fault Unit :=
  if d.entrances.isEmpty then .error .noEntrance
  else if d.models.isEmpty then .error .noModel
  else checkAcyclic d

/-! ## Results -/

/-- The content of a build method. -/
structure Compilation where
  statements : List Statement
  /-- The variables of the models, in the order of their statements. -/
  endpoints : List String
  /-- The parameters of the constructor. -/
  placeholders : List String
  /-- The import groups. -/
  sources : List String
  notices : List Notice
deriving Repr

/-- The statements as text. -/
def Compilation.lines (c : Compilation) : List String :=
  c.statements.map Statement.text

/-- The layers that were neither written nor written inside a statement. -/
def unusedLayers (d : Document) (t : Draft) : List Notice :=
  (d.layers.filter fun l => !(t.emitted.contains l.id || t.scope.inlined.contains l.id)).map
    Notice.unusedLayer

/-- The models that were not written. -/
def unreleasedModels (d : Document) (t : Draft) : List Notice :=
  (d.models.filter fun m => !t.emitted.contains m.id).map fun m =>
    Notice.unreleasedModel m (t.ledger.isPending m.id)

/-- The result of a finished draft. -/
def Draft.finish (d : Document) (t : Draft) : Compilation where
  statements := t.statements
  endpoints := t.endpoints
  placeholders := t.scope.placeholders
  sources := t.scope.sources
  notices := t.scope.notices ++ unusedLayers d t ++ unreleasedModels d t

/-- Writes the statements of a document, checked or not. -/
def walk (d : Document) : Except Fault Compilation :=
  match Draft.enterAll d d.entrances {} with
  | .error fault => .error fault
  | .ok t => .ok (t.finish d)

/-- Checks a document and writes its statements. -/
def compile (d : Document) : Except Fault Compilation :=
  match validate d with
  | .error fault => .error fault
  | .ok _ => walk d

end NetDiagram.Flow
