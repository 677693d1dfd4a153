import NetDiagram.Diagram.Argument
import NetDiagram.Span

/-!
# Entities of a diagram

A diagram is made of five kinds of entities.

* A `Layer` becomes a statement of the build method, or is written inside another statement.
* A `Model` joins layers as its inputs and outputs and becomes a result of the build method.
* A `UnitSpec` is an object that other entities take as an argument.
* A `Placeholder` is a parameter of the constructor.
* A `Note` is a remark; it never reaches the generated module.

Every entity has an id, a position on the drawing board and, when it was read from a text, the
place where it was declared.
-/

namespace NetDiagram

/-! ## Parts of a layer -/

/-- How a layer takes part in the diagram. -/
inductive Mode where
  /-- An ordinary layer: a statement with a variable. -/
  | io
  /-- An inline layer: written only as an argument of another entity. -/
  | ca
  /-- A layer that takes inline layers as arguments: a statement with a variable. -/
  | ac
deriving DecidableEq, Repr

namespace Mode

/-- The name of the mode. -/
def name : Mode → String
  | io => "IO"
  | ca => "CA"
  | ac => "AC"

/-- The modes by name. -/
def spellings : List (String × Mode) :=
  [("IO", io), ("CA", ca), ("AC", ac)]

/-- The mode of a given name. -/
def ofText? (s : String) : Option Mode :=
  spellings.lookup s

/-- Whether a layer of this mode has a variable of its own. -/
def isMaterialized : Mode → Bool
  | io | ac => true
  | ca => false

end Mode

/-- The layers that a layer waits for. -/
inductive Inputs where
  | none
  | single (id : NodeId)
  | many (ids : List NodeId)
deriving DecidableEq, Repr

namespace Inputs

/-- The inputs that a list of ids declares. -/
def ofIds : List NodeId → Inputs
  | [] => none
  | [id] => single id
  | ids => many ids

/-- The inputs that a text divided by semicolons declares. -/
def parse (raw : String) : Inputs :=
  ofIds (parseIdList raw)

/-- The declared ids, in order. -/
def ids : Inputs → List NodeId
  | none => []
  | single id => [id]
  | many ids => ids

/-- Whether the id is declared. -/
def contains (i : Inputs) (id : NodeId) : Bool :=
  i.ids.contains id

end Inputs

/-! ## The five kinds -/

/-- A place on the drawing board. -/
structure Position where
  x : Float := 0
  y : Float := 0
deriving Repr

/-- What all entities have in common. -/
structure Node where
  id : NodeId
  position : Position := {}
  span : Option Span := none
deriving Repr

/-- A layer of the network. -/
structure Layer extends Node where
  var : String
  className : String
  mode : Mode := .io
  args : List Argument := []
  input : Inputs := .none
  output : List NodeId := []
  entrance : Bool := false
deriving Repr

/-- A model over some layers; its inputs and outputs are arguments of these names. -/
structure Model extends Node where
  var : String
  className : String := "Model"
  args : List Argument := []
deriving Repr

/-- An object that is used as an argument, such as an initializer. -/
structure UnitSpec extends Node where
  className : String
  source : String
  args : List Argument := []
deriving Repr

/-- A parameter of the constructor. -/
structure Placeholder extends Node where
  name : String
deriving Repr

/-- A remark. -/
structure Note extends Node where
  text : String
deriving Repr

/-! ## Arguments of a model -/

/-- Sets an argument in a list of arguments: one of the same name is replaced where it stands,
otherwise the argument comes last. -/
def setArgument (a : Argument) : List Argument → List Argument
  | [] => [a]
  | b :: bs => if b.name == a.name then a :: bs else b :: setArgument a bs

namespace Model

/-- The name of the argument that lists the input layers. -/
def inputsName : String :=
  "inputs"

/-- The name of the argument that lists the output layers. -/
def outputsName : String :=
  "outputs"

/-- Sets an argument of the model. -/
def withArg (m : Model) (a : Argument) : Model :=
  { m with args := setArgument a m.args }

/-- Sets the input layers. -/
def withInputs (m : Model) (ids : List NodeId) : Model :=
  m.withArg (.ofIds inputsName ids)

/-- Sets the output layers. -/
def withOutputs (m : Model) (ids : List NodeId) : Model :=
  m.withArg (.ofIds outputsName ids)

/-- The argument of a given name. -/
def arg? (m : Model) (name : String) : Option Argument :=
  m.args.find? (·.name == name)

/-- The argument that lists the input layers. -/
def inputs? (m : Model) : Option Argument :=
  m.arg? inputsName

/-- The argument that lists the output layers. -/
def outputs? (m : Model) : Option Argument :=
  m.arg? outputsName

end Model

/-! ## Entities -/

/-- An element of a diagram. -/
inductive Entity where
  | layer (l : Layer)
  | model (m : Model)
  | unit (u : UnitSpec)
  | placeholder (p : Placeholder)
  | note (n : Note)
deriving Repr

namespace Entity

/-- The common part. -/
def node : Entity → Node
  | layer l => l.toNode
  | model m => m.toNode
  | unit u => u.toNode
  | placeholder p => p.toNode
  | note n => n.toNode

/-- The id. -/
def id (e : Entity) : NodeId :=
  e.node.id

/-- The place of the declaration. -/
def span (e : Entity) : Option Span :=
  e.node.span

/-- The place on the drawing board. -/
def position (e : Entity) : Position :=
  e.node.position

/-- The name of the kind. -/
def tag : Entity → String
  | layer _ => "layer"
  | model _ => "model"
  | unit _ => "unit"
  | placeholder _ => "ph"
  | note _ => "note"

/-- How messages name the entity. -/
def label : Entity → String
  | layer l => l.className ++ ":" ++ l.var
  | model m => m.className ++ ":" ++ m.var
  | unit u => u.source ++ "." ++ u.className
  | placeholder p => "ph:" ++ p.name
  | note n => "note:" ++ n.id.text

/-- The arguments; placeholders and notes have none. -/
def args : Entity → List Argument
  | layer l => l.args
  | model m => m.args
  | unit u => u.args
  | placeholder _ | note _ => []

/-- The layer, if the entity is one. -/
def layer? : Entity → Option Layer
  | layer l => some l
  | _ => none

/-- The model, if the entity is one. -/
def model? : Entity → Option Model
  | model m => some m
  | _ => none

end Entity

end NetDiagram
