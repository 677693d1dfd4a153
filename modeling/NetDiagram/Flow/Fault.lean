import NetDiagram.Diagnostic
import NetDiagram.Diagram.Document

/-!
# What can go wrong while compiling

A `Fault` stops a compilation; a `Notice` is reported beside its result.  Both hold the entities
they are about, and `diagnostic` puts them into words.
-/

namespace NetDiagram.Flow

/-- A text between backquotes. -/
def ticked (s : String) : String :=
  "`" ++ s ++ "`"

/-! ## Faults -/

/-- Why a document cannot be compiled. -/
inductive Fault where
  | noEntrance
  | noModel
  /-- The entity lies on a cycle of output connections. -/
  | cyclic (entity : Entity)
  /-- A layer is connected to an id that names nothing. -/
  | danglingLink (source : Layer) (target : NodeId)
  /-- A layer is connected to a unit, a placeholder or a note. -/
  | linkToValue (source : Layer) (target : Entity)
  /-- A layer is connected to a layer that does not wait for it. -/
  | notAnInput (source : Layer) (target : Layer)
  /-- A layer is connected to a model that lists it in no role. -/
  | notARole (source : Layer) (target : Model)
  /-- An inline layer is an entrance, or a layer is connected to it. -/
  | inlineInFlow (source : Option Layer) (target : Layer)
  /-- A model does not say which layers are its inputs, or its outputs. -/
  | missingRole (model : Model) (name : String)
  /-- The value of an argument has still to be given. -/
  | missingArgument (owner : Entity) (argument : Argument)
  /-- An argument refers to an id that names nothing. -/
  | danglingReference (owner : Entity) (argument : Argument) (target : NodeId)
  /-- An argument refers to a model or a note. -/
  | badReference (owner : Entity) (argument : Argument) (target : Entity)
  /-- The references of inline entities lead from the first of the chain through the others to
  the target, which is one of them. -/
  | cyclicReference (chain : List Entity) (target : Entity)
deriving Repr

/-- A finding about a connection that leaves a layer. -/
def connectionDiagnostic (source : Layer) (what : String) : Diagnostic :=
  (Diagnostic.ofCode .badConnection
      (ticked (Entity.layer source).label ++ " is connected to " ++ what)).mark
    source.span "connection declared here"
  |>.hint "reconnect the layer or remove the edge"

/-- A finding about a reference in an argument. -/
def referenceDiagnostic (owner : Entity) (argument : Argument) (what : String) : Diagnostic :=
  (Diagnostic.ofCode .unresolvedReference
      ("argument " ++ ticked argument.name ++ " of " ++ ticked owner.label ++ " refers to " ++
        what)).mark
    owner.span "argument declared on this node"

/-- The fault in words. -/
def Fault.diagnostic : Fault → Diagnostic
  | noEntrance =>
    (Diagnostic.ofCode .noEntrance "the document has no entrance layer").hint
      "mark an input layer with `entrance = true`"
  | noModel =>
    (Diagnostic.ofCode .noModel "the document has no model").hint
      "add a `[[model]]` with `inputs` and `outputs`"
  | cyclic entity =>
    (Diagnostic.ofCode .cyclicGraph
        (ticked entity.label ++ " is part of a cycle of output connections")).mark
      entity.span "cycle passes through this node"
    |>.hint "the model graph must be acyclic; remove one connection of the loop"
  | danglingLink source target =>
    connectionDiagnostic source (ticked target.text ++ ", which does not exist")
  | linkToValue source target =>
    (connectionDiagnostic source
        (target.tag ++ " " ++ ticked target.label ++ ", which cannot take an input")).alsoMark
      target.span "connection target"
  | notAnInput source target =>
    (connectionDiagnostic source
        (ticked (Entity.layer target).label ++ ", which does not list it as an input")).alsoMark
      target.span "inputs declared here"
  | notARole source target =>
    (connectionDiagnostic source
        (ticked (Entity.model target).label ++ ", which lists it in neither " ++
          ticked Model.inputsName ++ " nor " ++ ticked Model.outputsName)).alsoMark
      target.span "model declared here"
  | inlineInFlow source target =>
    let label := ticked (Entity.layer target).label
    let message := match source with
      | some source =>
        ticked (Entity.layer source).label ++ " is connected to inline layer " ++ label
      | none => "inline layer " ++ label ++ " is marked as an entrance"
    (Diagnostic.ofCode .inlineInFlow message).mark target.span "layer in CA mode"
    |>.hint ("a CA layer is only emitted as the argument of an AC layer; " ++
        "use it through an `id` argument")
  | missingRole model name =>
    (Diagnostic.ofCode .missingArgument
        ("missing required argument " ++ ticked name ++ " of " ++
          ticked (Entity.model model).label)).mark
      model.span "model declared here"
    |>.hint ("list the layers of " ++ ticked name ++ " separated by `;`")
  | missingArgument owner argument =>
    (Diagnostic.ofCode .missingArgument
        ("missing required argument " ++ ticked argument.name ++ " (" ++ argument.kind.name ++
          ") of " ++ ticked owner.label)).mark
      owner.span "declared on this node"
    |>.hint ("set a value for " ++ ticked argument.name ++ " before exporting")
  | danglingReference owner argument target =>
    referenceDiagnostic owner argument (ticked target.text ++ ", which does not exist")
  | badReference owner argument target =>
    (referenceDiagnostic owner argument
        (target.tag ++ " " ++ ticked target.label ++ ", which cannot be used as an argument")).alsoMark
      target.span "referenced entity"
  | cyclicReference chain target =>
    (Diagnostic.ofCode .cyclicReference
        ("argument chain " ++ " -> ".intercalate (chain.map (ticked ·.label)) ++
          " refers back to " ++ ticked target.label)).mark
      target.span "referenced again here"
    |>.hint "an inline layer or unit cannot use itself as an argument"

/-! ## Notices -/

/-- What is worth telling about a compilation, or an export, that succeeds. -/
inductive Notice where
  /-- The layer is neither built nor written inside another statement. -/
  | unusedLayer (layer : Layer)
  /-- The model is never built; `waiting` if some layer reached it. -/
  | unreleasedModel (model : Model) (waiting : Bool)
  /-- An argument names a layer whose statement comes later, if at all. -/
  | forwardReference (owner : Entity) (argument : Argument) (layer : Layer)
  /-- The generated module replaced a file. -/
  | coveredFile (path : String)
deriving Repr

/-- The notice in words. -/
def Notice.diagnostic : Notice → Diagnostic
  | unusedLayer layer =>
    (Diagnostic.ofCode .unusedLayer
        ("layer " ++ ticked (Entity.layer layer).label ++ " is never used")).mark
      layer.span "unused layer"
  | unreleasedModel model waiting =>
    let reason :=
      if waiting then " is still waiting for some of its inputs or outputs"
      else " is never reached"
    (Diagnostic.ofCode .unreleasedModel
        ("model " ++ ticked (Entity.model model).label ++ reason)).mark
      model.span "unreleased model"
  | forwardReference owner argument layer =>
    (Diagnostic.ofCode .forwardReference
        ("argument " ++ ticked argument.name ++ " of " ++ ticked owner.label ++
          " refers to layer " ++ ticked (Entity.layer layer).label ++ " before it is built")).mark
      owner.span "argument declared on this node"
    |>.alsoMark layer.span "layer built later"
    |>.hint "connect the referenced layer so it is reached first"
  | coveredFile path =>
    Diagnostic.ofCode .coveredFile
      ("existing file " ++ ticked path ++ " was covered by the new model")

end NetDiagram.Flow
