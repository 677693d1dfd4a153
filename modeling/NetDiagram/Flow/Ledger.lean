import NetDiagram.Diagram.NodeId

/-!
# The ledger of joins

A node that waits for several others has a join.  A join has one or more roles, each a set of
declared ids; a layer with several inputs has one role, a model has one for its inputs and one
for its outputs.  An id that arrives is crossed off in every role that declares it, and the join
is released once nothing is outstanding.  The order of the arrivals does not matter.
-/

namespace NetDiagram.Flow

/-- What an arrival does to a join. -/
inductive Arrival where
  /-- Something is outstanding, or the join was released before. -/
  | pending
  /-- The arrival crossed off the last outstanding id. -/
  | satisfied
  /-- The id is in no role of the join. -/
  | undeclared
deriving DecidableEq, Repr

/-- One set of declared ids, those of them that have arrived, and how many are outstanding. -/
structure Role where
  declared : List NodeId
  arrived : List NodeId
  outstanding : Nat
deriving DecidableEq, Repr

namespace Role

/-- The role that declares the given ids; a repeated id counts once. -/
def ofIds (ids : List NodeId) : Role where
  declared := ids.eraseDups
  arrived := []
  outstanding := ids.eraseDups.length

/-- Crosses an id off. -/
def arrive (r : Role) (id : NodeId) : Role :=
  if id ∈ r.declared ∧ id ∉ r.arrived then
    { r with arrived := id :: r.arrived, outstanding := r.outstanding - 1 }
  else r

end Role

/-- The roles of a node, and whether it was released. -/
structure Join where
  roles : List Role
  released : Bool
deriving DecidableEq, Repr

namespace Join

/-- The join that declares the given sets of ids. -/
def ofRoles (roles : List (List NodeId)) : Join where
  roles := roles.map Role.ofIds
  released := false

/-- Whether some role declares the id. -/
def declares (j : Join) (id : NodeId) : Bool :=
  j.roles.any fun r => r.declared.contains id

/-- Whether nothing is outstanding. -/
def isComplete (j : Join) : Bool :=
  j.roles.all fun r => r.outstanding == 0

/-- Records an arrival. -/
def arrive (j : Join) (id : NodeId) : Arrival × Join :=
  if j.declares id then
    let next := { j with roles := j.roles.map (·.arrive id) }
    if !next.released && next.isComplete then (.satisfied, { next with released := true })
    else (.pending, next)
  else (.undeclared, j)

end Join

/-- The joins of a document, by node. -/
structure Ledger where
  joins : List (NodeId × Join) := []
deriving DecidableEq, Repr

namespace Ledger

/-- The join of a node. -/
def get? (l : Ledger) (node : NodeId) : Option Join :=
  l.joins.lookup node

/-- Opens a join for a node, unless it has one. -/
def register (l : Ledger) (node : NodeId) (roles : List (List NodeId)) : Ledger :=
  match l.get? node with
  | some _ => l
  | none => ⟨(node, .ofRoles roles) :: l.joins⟩

/-- Records that an id arrived at a node. -/
def arrive (l : Ledger) (node id : NodeId) : Arrival × Ledger :=
  match l.get? node with
  | none => (.undeclared, l)
  | some join =>
    let (answer, next) := join.arrive id
    (answer, ⟨l.joins.map fun (k, j) => if k = node then (k, next) else (k, j)⟩)

/-- Whether a node has a join that was not released. -/
def isPending (l : Ledger) (node : NodeId) : Bool :=
  match l.get? node with
  | some join => !join.released
  | none => false

end Ledger

end NetDiagram.Flow
