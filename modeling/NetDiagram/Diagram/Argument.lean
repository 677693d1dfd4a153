import NetDiagram.Diagram.NodeId

/-!
# Arguments of entities

An argument is a name with the raw text of its value and a class that says how the text is meant.
The text is a list of items divided by semicolons.  Two texts are special: `!REQ` marks a value
that has still to be given, and `null` in a list of ids stands for no id.
-/

namespace NetDiagram

/-- How the items of an argument are meant. -/
inductive ArgClass where
  /-- Texts, written as string literals. -/
  | str
  /-- Numbers, written as they stand. -/
  | num
  /-- Tuples and lists, written as they stand. -/
  | seq
  /-- Truth values, written as they stand. -/
  | bool
  /-- References to entities of the document. -/
  | id
deriving DecidableEq, Repr

namespace ArgClass

/-- The short name of the class. -/
def name : ArgClass → String
  | str => "str"
  | num => "num"
  | seq => "seq"
  | bool => "bool"
  | id => "id"

/-- The spellings of the classes: a short one and, for all but references, a long one. -/
def spellings : List (String × ArgClass) :=
  [("str", str), ("string", str), ("num", num), ("number", num), ("seq", seq),
    ("sequence", seq), ("bool", bool), ("boolean", bool), ("id", id)]

/-- The class of a given spelling. -/
def ofText? (s : String) : Option ArgClass :=
  spellings.lookup s

end ArgClass

/-- A named value of an entity. -/
structure Argument where
  name : String
  raw : String
  kind : ArgClass
deriving DecidableEq, Repr

/-- The ids of a text divided by semicolons; blank items and `null` stand for none. -/
def parseIdList (raw : String) : List NodeId :=
  ((Text.splitAt ';' raw).map Text.trim).filterMap fun item =>
    if item == "" || item == "null" then none else some (NodeId.ofText item)

namespace Argument

/-- The mark of a value that has still to be given. -/
def requiredMark : String :=
  "!REQ"

/-- An argument that lists ids. -/
def ofIds (name : String) (ids : List NodeId) : Argument where
  name := name
  raw := ";".intercalate (ids.map NodeId.text)
  kind := .id

/-- An argument whose value has still to be given. -/
def required (name : String) (kind : ArgClass) : Argument where
  name := name
  raw := requiredMark
  kind := kind

/-- The items of the value, as they stand between the semicolons. -/
def items (a : Argument) : List String :=
  Text.splitAt ';' a.raw

/-- Whether the value has still to be given: the whole text is the mark, blanks at its ends
aside, or one of the items is exactly the mark. -/
def isUnset (a : Argument) : Bool :=
  Text.trim a.raw == requiredMark || a.items.contains requiredMark

/-- The ids that the value lists, whatever the class of the argument. -/
def idList (a : Argument) : List NodeId :=
  parseIdList a.raw

end Argument

end NetDiagram
