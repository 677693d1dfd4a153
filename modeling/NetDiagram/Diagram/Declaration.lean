import NetDiagram.Diagram.Entity
import NetDiagram.Record.Decode

/-!
# Declarations of entities

How each kind of entity is declared in a TOML text: the fields of its record, and the entity that
the fields stand for.  Ids and values may be written as texts, numbers or truth values; lists of
ids as texts with semicolons or as arrays.
-/

namespace NetDiagram.Declaration

open Record

/-! ## Arguments -/

/-- The class of an argument whose class is not given. -/
def defaultClass : Atom → ArgClass
  | .text _ => .str
  | .integer _ | .decimal _ => .num
  | .boolean _ => .bool

/-- The record of an argument. -/
def argumentShape : Shape where
  name := "RawArg"
  fields := [required "name" text, required "value" atom,
    optional "class" (choice ArgClass.spellings)]

/-- Reads an argument. -/
def argument : Decoder Argument
  | node => do
    let fs ← argumentShape.read node
    let name ← fs.getD "name" text ""
    let value ← fs.getD "value" atom (.text "")
    let kind ← fs.getD "class" (choice ArgClass.spellings) (defaultClass value)
    .ok ⟨name, value.render, kind⟩

/-! ## Common fields -/

/-- Reads an id. -/
def nodeId : Decoder NodeId
  | node => (atom node).map fun a => NodeId.ofText a.render

/-- Reads a list of ids. -/
def nodeIds : Decoder (List NodeId)
  | node => (idText node).map parseIdList

/-- The fields of a position. -/
def positionFields : List Field :=
  [optional "x" number, optional "y" number]

/-- Reads what all entities have in common; the place is that of the whole record. -/
def common (record : Toml.Node) (fs : Fields) : Except Misfit Node := do
  let id ← fs.getD "id" nodeId default
  let x ← fs.getD "x" number 0
  let y ← fs.getD "y" number 0
  .ok ⟨id, ⟨x, y⟩, some record.span⟩

/-! ## Entities -/

/-- The record of a layer. -/
def layerShape : Shape where
  name := "RawLayer"
  fields := [required "id" nodeId, required "var" text, required "class" text,
    optional "mode" (choice Mode.spellings), optional "entrance" boolean,
    optional "input" nodeIds, optional "output" nodeIds, optional "args" (list argument)] ++
    positionFields

/-- Reads a layer. -/
def layer : Decoder Entity
  | node => do
    let fs ← layerShape.read node
    let base ← common node fs
    let var ← fs.getD "var" text ""
    let className ← fs.getD "class" text ""
    let mode ← fs.getD "mode" (choice Mode.spellings) .io
    let entrance ← fs.getD "entrance" boolean false
    let input ← fs.getD "input" nodeIds []
    let output ← fs.getD "output" nodeIds []
    let args ← fs.getD "args" (list argument) []
    .ok (.layer ⟨base, var, className, mode, args, .ofIds input, output, entrance⟩)

/-- The record of a model. -/
def modelShape : Shape where
  name := "RawModel"
  fields := [required "id" nodeId, required "var" text, optional "inputs" nodeIds,
    optional "outputs" nodeIds, optional "args" (list argument)] ++ positionFields

/-- The model with the given arguments and, if they are listed apart, inputs and outputs. -/
def makeModel (base : Node) (var : String) (args : List Argument)
    (inputs outputs : Option (List NodeId)) : Model :=
  let m := args.foldl Model.withArg { toNode := base, var := var }
  let m := inputs.elim m m.withInputs
  outputs.elim m m.withOutputs

/-- Reads a model. -/
def model : Decoder Entity
  | node => do
    let fs ← modelShape.read node
    let base ← common node fs
    let var ← fs.getD "var" text ""
    let args ← fs.getD "args" (list argument) []
    let inputs ← fs.get? "inputs" nodeIds
    let outputs ← fs.get? "outputs" nodeIds
    .ok (.model (makeModel base var args inputs outputs))

/-- The record of a unit. -/
def unitShape : Shape where
  name := "RawUnit"
  fields := [required "id" nodeId, required "class" text, required "source" text,
    optional "args" (list argument)] ++ positionFields

/-- Reads a unit. -/
def unit : Decoder Entity
  | node => do
    let fs ← unitShape.read node
    let base ← common node fs
    let className ← fs.getD "class" text ""
    let source ← fs.getD "source" text ""
    let args ← fs.getD "args" (list argument) []
    .ok (.unit ⟨base, className, source, args⟩)

/-- The record of a placeholder. -/
def placeholderShape : Shape where
  name := "RawPlaceholder"
  fields := [required "id" nodeId, required "name" text] ++ positionFields

/-- Reads a placeholder. -/
def placeholder : Decoder Entity
  | node => do
    let fs ← placeholderShape.read node
    let base ← common node fs
    let name ← fs.getD "name" text ""
    .ok (.placeholder ⟨base, name⟩)

/-- The record of a note. -/
def noteShape : Shape where
  name := "RawNote"
  fields := [required "id" nodeId, optional "text" text] ++ positionFields

/-- Reads a note. -/
def note : Decoder Entity
  | node => do
    let fs ← noteShape.read node
    let base ← common node fs
    let body ← fs.getD "text" text ""
    .ok (.note ⟨base, body⟩)

/-! ## Documents -/

/-- The record of a document: a list of declarations for each kind. -/
def documentShape : Shape where
  name := "RawDocument"
  fields := [optional "layer" (list layer), optional "model" (list model),
    optional "unit" (list unit), optional "ph" (list placeholder), optional "note" (list note)]

/-- Reads the declarations of a document, kind by kind. -/
def entities : Decoder (List Entity)
  | node => do
    let fs ← documentShape.read node
    let layers ← fs.getD "layer" (list layer) []
    let models ← fs.getD "model" (list model) []
    let units ← fs.getD "unit" (list unit) []
    let placeholders ← fs.getD "ph" (list placeholder) []
    let notes ← fs.getD "note" (list note) []
    .ok (layers ++ models ++ units ++ placeholders ++ notes)

end NetDiagram.Declaration
