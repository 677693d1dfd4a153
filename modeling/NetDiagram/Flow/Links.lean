import NetDiagram.Flow.Remaining

/-!
# Links between numbered nodes, and cycles among them

`Links n` is a directed graph on `n` nodes given by the list of its links; a link may be listed
more than once.  `Links.cycle?` names a node on a cycle, if there is one.  It works in two passes.

* `search` walks depth first, taking the links of a node in the order of the list, and records
  the nodes in the order in which they are finished.  A node with a link to itself stops the
  walk at once.
* `backLink?` goes through the nodes, the last finished first.  Without cycles every link leads
  from an earlier node of this sequence to a later one; the first node that is entered from a
  node not before it gives the answer, which is the source of the first such link.
-/

namespace NetDiagram.Flow

/-- A directed graph on `n` nodes. -/
structure Links (n : Nat) where
  arcs : List (Fin n × Fin n)

namespace Links

variable {n : Nat}

/-- The ends of the links that leave a node, in order. -/
def targets (g : Links n) (v : Fin n) : List (Fin n) :=
  g.arcs.filterMap fun (a, b) => if a = v then some b else none

/-- The starts of the links that enter a node, in order. -/
def sources (g : Links n) (v : Fin n) : List (Fin n) :=
  g.arcs.filterMap fun (a, b) => if b = v then some a else none

/-- The state of a depth-first walk: the nodes met so far, and those that are finished, the last
one first. -/
structure Search (n : Nat) where
  discovered : List (Fin n) := []
  finished : List (Fin n) := []
deriving DecidableEq, Repr

/-- Marks a node as finished, unless it is already. -/
def Search.finish (s : Search n) (v : Fin n) : Search n :=
  if v ∈ s.finished then s else { s with finished := v :: s.finished }

/-- Marks a node as met. -/
def Search.discover (s : Search n) (v : Fin n) : Search n :=
  { s with discovered := v :: s.discovered }

theorem Search.discovered_finish (s : Search n) (v : Fin n) :
    (s.finish v).discovered = s.discovered := by
  unfold finish
  split <;> rfl

/-- Walks depth first from the nodes of the stack.  The error is a node with a link to itself. -/
def search (g : Links n) : List (Fin n) → Search n → Except (Fin n) (Search n)
  | [], s => .ok s
  | v :: stack, s =>
    if v ∈ s.discovered then g.search stack (s.finish v)
    else if v ∈ g.targets v then .error v
    else
      g.search ((g.targets v).filter (fun w => !(s.discover v).discovered.contains w) ++
        v :: stack) (s.discover v)
termination_by stack s => (remaining (List.finRange n) s.discovered, stack.length)
decreasing_by
  · rw [Search.discovered_finish]
    exact Prod.Lex.right _ (by simp)
  · refine Prod.Lex.left _ _ (remaining_lt ?_ (List.mem_finRange v) (by assumption) ?_)
    · intro b hb
      exact List.mem_cons_of_mem v hb
    · exact List.mem_cons_self

/-- The first node of the sequence that is entered from a node not before it; the answer is the
source of the first such link. -/
def backLink? (g : Links n) (seen : List (Fin n)) : List (Fin n) → Option (Fin n)
  | [] => none
  | v :: rest =>
    match (g.sources v).find? fun u => !(v :: seen).contains u with
    | some u => some u
    | none => g.backLink? (v :: seen) rest

/-- A node on a cycle, if there is a cycle. -/
def cycle? (g : Links n) : Option (Fin n) :=
  match g.search (List.finRange n) {} with
  | .error v => some v
  | .ok s => g.backLink? [] s.finished

end Links

end NetDiagram.Flow
