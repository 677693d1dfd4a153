import NetDiagram.Flow.Ledger
import NetDiagram.Flow.Scope
import NetDiagram.Flow.Statement

/-!
# Writing statements along the connections

Statements are written depth first, from the entrances along the outputs.  A layer with one input
is written when its predecessor reaches it; a layer with several inputs, and every model, waits in
the ledger until all that it declares has arrived.

A `Draft` is what has been written so far.  `Draft.follow` works through a stack of connections:
writing a layer puts its own connections on top, so they come before those of its siblings.  A
layer is written at most once, so the stack runs empty.
-/

namespace NetDiagram.Flow

/-- The statements written so far, and what is known while writing them. -/
structure Draft where
  ledger : Ledger := {}
  scope : Scope := {}
  statements : List Statement := []
  /-- The variables of the models written so far. -/
  endpoints : List String := []
  /-- The ids of the layers and models written so far, in the order of their statements. -/
  emitted : List NodeId := []
deriving Repr

/-- The connections that leave a layer. -/
def connections (l : Layer) : List (Layer × NodeId) :=
  l.output.map fun id => (l, id)

namespace Draft

/-! ## Layers -/

/-- Writes the statement of a layer. -/
def writeLayer (d : Document) (t : Draft) (l : Layer) (call : Option String) :
    Except Fault Draft :=
  match (renderArgs d [] (.layer l) l.args).run (t.scope.touch layerSource) with
  | .error fault => .error fault
  | .ok (args, scope) =>
    .ok
      { t with
        scope := scope.bind l.id l.var
        statements := t.statements ++
          [⟨l.var, layerSource, l.className, ", ".intercalate args, call⟩]
        emitted := t.emitted ++ [l.id] }

/-- The variables of the layers among the given ids. -/
def predecessorVars (d : Document) (ids : List NodeId) : List String :=
  ids.filterMap fun id => (d.get? id).bind fun e => e.layer?.map (·.var)

/-- What the arrival of a layer at another layer leads to: the ledger afterwards and, if the
target is to be written now, the text that its object is called with. -/
def reachLayer (d : Document) (t : Draft) (source target : Layer) :
    Except Fault (Ledger × Option String) :=
  if target.id ∈ t.emitted then .ok (t.ledger, none)
  else
    match target.input with
    | .single id =>
      if id = source.id then .ok (t.ledger, some source.var)
      else .error (.notAnInput source target)
    | .many ids =>
      match (t.ledger.register target.id [ids]).arrive target.id source.id with
      | (.satisfied, ledger) => .ok (ledger, some (bracket (predecessorVars d ids)))
      | (.pending, ledger) => .ok (ledger, none)
      | (.undeclared, _) => .error (.notAnInput source target)
    | .none => .error (.notAnInput source target)

/-! ## Models -/

/-- The ids that a model lists in a role. -/
def roleIds (m : Model) (name : String) : Except Fault (List NodeId) :=
  match m.arg? name with
  | some a => if a.isUnset then .error (.missingRole m name) else .ok a.idList
  | none => .error (.missingRole m name)

/-- Writes the statement of a model. -/
def writeModel (d : Document) (t : Draft) (m : Model) : Except Fault Draft :=
  match (renderArgs d [] (.model m) m.args).run (t.scope.touch modelSource) with
  | .error fault => .error fault
  | .ok (args, scope) =>
    .ok
      { t with
        scope := scope
        statements := t.statements ++
          [⟨m.var, modelSource, m.className, ", ".intercalate args, none⟩]
        endpoints := t.endpoints ++ [m.var]
        emitted := t.emitted ++ [m.id] }

/-- What the arrival of a layer at a model leads to. -/
def reachModel (d : Document) (t : Draft) (source : Layer) (m : Model) : Except Fault Draft :=
  match roleIds m Model.inputsName with
  | .error fault => .error fault
  | .ok inputs =>
    match roleIds m Model.outputsName with
    | .error fault => .error fault
    | .ok outputs =>
      match (t.ledger.register m.id [inputs, outputs]).arrive m.id source.id with
      | (.satisfied, ledger) => writeModel d { t with ledger := ledger } m
      | (.pending, ledger) => .ok { t with ledger := ledger }
      | (.undeclared, _) => .error (.notARole source m)

/-! ## What a step keeps -/

theorem emitted_writeLayer {d : Document} {t t' : Draft} {l : Layer} {call : Option String}
    (h : writeLayer d t l call = .ok t') : t'.emitted = t.emitted ++ [l.id] := by
  unfold writeLayer at h
  split at h
  · simp at h
  · simp only [Except.ok.injEq] at h
    simp [← h]

theorem emitted_writeModel {d : Document} {t t' : Draft} {m : Model}
    (h : writeModel d t m = .ok t') : t'.emitted = t.emitted ++ [m.id] := by
  unfold writeModel at h
  split at h
  · simp at h
  · simp only [Except.ok.injEq] at h
    simp [← h]

theorem mem_emitted_reachModel {d : Document} {t t' : Draft} {source : Layer} {m : Model}
    (h : reachModel d t source m = .ok t') {id : NodeId} (hid : id ∈ t.emitted) :
    id ∈ t'.emitted := by
  unfold reachModel at h
  split at h
  · simp at h
  · split at h
    · simp at h
    · split at h
      · rw [emitted_writeModel h]
        exact List.mem_append_left _ hid
      · simp only [Except.ok.injEq] at h
        simpa [← h] using hid
      · simp at h

theorem not_mem_emitted_of_reachLayer {d : Document} {t : Draft} {source target : Layer}
    {ledger : Ledger} {call : String}
    (h : reachLayer d t source target = .ok (ledger, some call)) : target.id ∉ t.emitted := by
  unfold reachLayer at h
  split at h
  · simp at h
  · assumption

/-! ## Following the connections -/

/-- The number of layers that have no statement yet. -/
def unwritten (d : Document) (t : Draft) : Nat :=
  remaining (d.layers.map (·.id)) t.emitted

theorem unwritten_writeLayer_lt {d : Document} {t t' : Draft} {l : Layer} {id : NodeId}
    {call : Option String} {ledger : Ledger} (hmem : d.get? id = some (.layer l))
    (hnew : l.id ∉ t.emitted) (h : writeLayer d { t with ledger := ledger } l call = .ok t') :
    t'.unwritten d < t.unwritten d := by
  have hl : l.id ∈ d.layers.map (·.id) := by
    refine List.mem_map_of_mem (List.mem_filterMap.2 ⟨_, Document.mem_of_get? hmem, rfl⟩)
  have he := emitted_writeLayer h
  exact remaining_lt (fun b hb => by rw [he]; exact List.mem_append_left _ hb) hl hnew
    (by rw [he]; simp)

theorem unwritten_reachModel_le {d : Document} {t t' : Draft} {source : Layer} {m : Model}
    (h : reachModel d t source m = .ok t') : t'.unwritten d ≤ t.unwritten d :=
  remaining_le fun _ hb => mem_emitted_reachModel h hb

/-- Works through a stack of connections. -/
def follow (d : Document) : List (Layer × NodeId) → Draft → Except Fault Draft
  | [], t => .ok t
  | (source, id) :: rest, t =>
    match _hid : d.get? id with
    | none => .error (.danglingLink source id)
    | some (.model m) =>
      match _hm : reachModel d t source m with
      | .error fault => .error fault
      | .ok t' => follow d rest t'
    | some (.layer l) =>
      if l.mode = .ca then .error (.inlineInFlow (some source) l)
      else
        match _hr : reachLayer d t source l with
        | .error fault => .error fault
        | .ok (ledger, none) => follow d rest { t with ledger := ledger }
        | .ok (ledger, some call) =>
          match _hw : writeLayer d { t with ledger := ledger } l (some call) with
          | .error fault => .error fault
          | .ok t' => follow d (connections l ++ rest) t'
    | some target => .error (.linkToValue source target)
termination_by stack t => (t.unwritten d, stack.length)
decreasing_by
  · have hle := unwritten_reachModel_le _hm
    rcases Nat.lt_or_eq_of_le hle with hlt | heq
    · exact Prod.Lex.left _ _ hlt
    · rw [heq]
      exact Prod.Lex.right _ (by simp)
  · exact Prod.Lex.right _ (by simp)
  · exact Prod.Lex.left _ _
      (unwritten_writeLayer_lt _hid (not_mem_emitted_of_reachLayer _hr) _hw)

/-- Starts at an entrance: writes it, unless it was reached before, and follows its
connections. -/
def enter (d : Document) (t : Draft) (l : Layer) : Except Fault Draft :=
  if l.mode = .ca then .error (.inlineInFlow none l)
  else if l.id ∈ t.emitted then .ok t
  else
    match writeLayer d t l none with
    | .error fault => .error fault
    | .ok t' => follow d (connections l) t'

/-- Starts at each of the entrances, in order. -/
def enterAll (d : Document) : List Layer → Draft → Except Fault Draft
  | [], t => .ok t
  | l :: rest, t =>
    match enter d t l with
    | .error fault => .error fault
    | .ok t' => enterAll d rest t'

end Draft

end NetDiagram.Flow
