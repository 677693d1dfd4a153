import NetDiagram.Diagram.Entity

/-!
# Documents

A document is a list of entities with distinct ids.  The order is that of insertion, and all
that is reported about a document follows it.
-/

namespace NetDiagram

/-- What can be wrong with a value given to the document model. -/
inductive DocumentError where
  | duplicateId (id : NodeId)
  | unknownMode (text : String)
  | unknownArgClass (text : String)
deriving DecidableEq, Repr

/-- The wording of the error. -/
def DocumentError.message : DocumentError → String
  | duplicateId id => "duplicate entity id `" ++ id.text ++ "`"
  | unknownMode s => "unknown layer mode `" ++ s ++ "` (expected IO, CA or AC)"
  | unknownArgClass s =>
    "unknown argument class `" ++ s ++ "` (expected str, num, seq, bool or id)"

/-- The mode that a text names. -/
def Mode.parse (s : String) : Except DocumentError Mode :=
  match ofText? s with
  | some mode => .ok mode
  | none => .error (.unknownMode s)

/-- The argument class that a text names. -/
def ArgClass.parse (s : String) : Except DocumentError ArgClass :=
  match ofText? s with
  | some kind => .ok kind
  | none => .error (.unknownArgClass s)

/-- A list of entities with distinct ids. -/
structure Document where
  entities : List Entity
  nodup : (entities.map Entity.id).Nodup
deriving Repr

namespace Document

/-- The document without entities. -/
def empty : Document :=
  ⟨[], List.nodup_nil⟩

instance : Inhabited Document := ⟨empty⟩

/-- The entity of a given id. -/
def get? (d : Document) (id : NodeId) : Option Entity :=
  d.entities.find? (·.id == id)

/-- Whether an entity has the id. -/
def contains (d : Document) (id : NodeId) : Bool :=
  d.entities.any (·.id == id)

/-- Adds an entity at the end. -/
def insert (d : Document) (e : Entity) : Except DocumentError Document :=
  if h : e.id ∈ d.entities.map Entity.id then .error (.duplicateId e.id)
  else
    .ok
      { entities := d.entities ++ [e]
        nodup := by
          rw [List.map_append, List.nodup_append]
          refine ⟨d.nodup, by simp, ?_⟩
          intro a ha b hb
          simp only [List.map_cons, List.map_nil, List.mem_singleton] at hb
          rintro rfl
          exact h (hb ▸ ha) }

/-- The number of entities. -/
def size (d : Document) : Nat :=
  d.entities.length

/-- Whether there is no entity. -/
def isEmpty (d : Document) : Bool :=
  d.entities.isEmpty

/-- The ids in order. -/
def ids (d : Document) : List NodeId :=
  d.entities.map Entity.id

/-- The layers in order. -/
def layers (d : Document) : List Layer :=
  d.entities.filterMap Entity.layer?

/-- The models in order. -/
def models (d : Document) : List Model :=
  d.entities.filterMap Entity.model?

/-- The layers at which the network starts, in order. -/
def entrances (d : Document) : List Layer :=
  d.layers.filter (·.entrance)

theorem mem_of_get? {d : Document} {id : NodeId} {e : Entity} (h : d.get? id = some e) :
    e ∈ d.entities :=
  List.mem_of_find?_eq_some h

theorem id_of_get? {d : Document} {id : NodeId} {e : Entity} (h : d.get? id = some e) :
    e.id = id := by
  have := List.find?_some h
  simpa using this

end Document

end NetDiagram
