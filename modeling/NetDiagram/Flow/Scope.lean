import NetDiagram.Flow.Fault
import NetDiagram.Flow.Remaining
import NetDiagram.Text.Quoted

/-!
# Rendering arguments

The arguments of an entity become the text of a keyword-argument list.  Texts are quoted, numbers,
sequences and truth values stand as they are, and references are followed:

* a placeholder becomes a member of the object,
* a unit or an inline layer becomes a call with its own arguments,
* any other layer becomes its variable; if its statement has not been written yet, that is noted.

A `Scope` is what is known in the course of this: the expression of every entity that has one,
and the import groups and constructor parameters in the order of their first use.

References among units and inline layers may form a loop.  The `trail` is the list of the ids
that are being written, the outermost first; an id on the trail is not entered again, so the
recursion ends.
-/

namespace NetDiagram.Flow

/-- The import group of layers. -/
def layerSource : String :=
  "layers"

/-- The import group of models. -/
def modelSource : String :=
  "models"

/-- Adds a text at the end of a list, unless it is there. -/
def insertNew (s : String) (xs : List String) : List String :=
  if s ∈ xs then xs else xs ++ [s]

/-- What is known while statements are written. -/
structure Scope where
  /-- The expressions of entities, the latest first. -/
  names : List (NodeId × String) := []
  /-- The entities that were written inside a statement. -/
  inlined : List NodeId := []
  /-- The parameters of the constructor, in order of first use. -/
  placeholders : List String := []
  /-- The import groups, in order of first use. -/
  sources : List String := []
  /-- What was noted, in order. -/
  notices : List Notice := []
deriving Repr

namespace Scope

/-- The expression of an entity, if it has one. -/
def name? (s : Scope) (id : NodeId) : Option String :=
  s.names.lookup id

/-- Gives an entity its expression. -/
def bind (s : Scope) (id : NodeId) (expression : String) : Scope :=
  { s with names := (id, expression) :: s.names }

/-- Records the use of an import group. -/
def touch (s : Scope) (source : String) : Scope :=
  { s with sources := insertNew source s.sources }

/-- Records the use of a placeholder. -/
def require (s : Scope) (name : String) : Scope :=
  { s with placeholders := insertNew name s.placeholders }

/-- Records a notice. -/
def note (s : Scope) (notice : Notice) : Scope :=
  { s with notices := s.notices ++ [notice] }

/-- Records that an entity was written inside a statement as the given expression. -/
def inline (s : Scope) (id : NodeId) (expression : String) : Scope :=
  { s.bind id expression with inlined := id :: s.inlined }

end Scope

/-- The import group and the class of an entity that is written inside statements: a unit or an
inline layer. -/
def inlineCall? : Entity → Option (String × String)
  | .unit u => some (u.source, u.className)
  | .layer l => if l.mode.isMaterialized then none else some (layerSource, l.className)
  | _ => none

/-- One item stands alone, several are put in brackets. -/
def bracket : List String → String
  | [x] => x
  | xs => "[" ++ ", ".intercalate xs ++ "]"

/-- The text of a call. -/
def callText (source className : String) (args : List String) : String :=
  source ++ "." ++ className ++ "(" ++ ", ".intercalate args ++ ")"

/-- Rendering reads and extends a scope, and may fail. -/
abbrev Rendering :=
  StateT Scope (Except Fault)

theorem remaining_trail_lt {d : Document} {trail : List NodeId} {id : NodeId} {e : Entity}
    (h : d.get? id = some e) (hnew : id ∉ trail) :
    remaining d.ids (trail ++ [id]) < remaining d.ids trail := by
  have hmem : id ∈ d.ids := by
    rw [← Document.id_of_get? h]
    exact List.mem_map_of_mem (Document.mem_of_get? h)
  exact remaining_lt (fun b hb => List.mem_append_left _ hb) hmem hnew (by simp)

mutual

/-- Renders the given arguments of an entity. -/
def renderArgs (d : Document) (trail : List NodeId) (owner : Entity) :
    List Argument → Rendering (List String)
  | [] => pure []
  | a :: rest => do
    if a.isUnset then throw (.missingArgument owner a)
    let items ← renderItems d trail owner a (a.items.map Text.trim)
    let texts ← renderArgs d trail owner rest
    pure ((a.name ++ "=" ++ bracket items) :: texts)
termination_by args => (remaining d.ids trail, 2, args.length)

/-- Renders the given items of an argument. -/
def renderItems (d : Document) (trail : List NodeId) (owner : Entity) (a : Argument) :
    List String → Rendering (List String)
  | [] => pure []
  | item :: rest => do
    let text ← match a.kind with
      | .str => pure (Text.quote item)
      | .num | .seq | .bool => pure item
      | .id => renderReference d trail owner a (NodeId.ofText item)
    let texts ← renderItems d trail owner a rest
    pure (text :: texts)
termination_by items => (remaining d.ids trail, 1, items.length)

/-- Renders a reference. -/
def renderReference (d : Document) (trail : List NodeId) (owner : Entity) (a : Argument)
    (id : NodeId) : Rendering String := do
  match (← get).name? id with
  | some text => pure text
  | none =>
    match _found : d.get? id with
    | none => throw (.danglingReference owner a id)
    | some target =>
      match inlineCall? target with
      | some (source, className) =>
        if _new : id ∈ trail then throw (.cyclicReference (trail.filterMap d.get?) target)
        else
          modify (·.touch source)
          let args ← renderArgs d (trail ++ [id]) target target.args
          let text := callText source className args
          modify (·.inline id text)
          pure text
      | none =>
        match target with
        | .placeholder p =>
          let text := "self." ++ p.name
          modify fun s => (s.require p.name).bind id text
          pure text
        | .layer l =>
          modify (·.note (.forwardReference owner a l))
          pure l.var
        | _ => throw (.badReference owner a target)
termination_by (remaining d.ids trail, 0, 0)
decreasing_by exact Prod.Lex.left _ _ (remaining_trail_lt (by assumption) (by assumption))

end

end NetDiagram.Flow
