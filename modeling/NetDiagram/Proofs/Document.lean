import Mathlib.Tactic.Lemma
import NetDiagram.Diagram.Document

/-!
# Lookups, connections and declared predecessors

A document finds its entities by id, and ids are distinct, so looking an id up is the same as
being in the list (`Document.get?_eq_some_iff`).

A connection is declared at both ends.  Its source, a layer, lists the target among its outputs:
that is `Document.Feeds`.  Its target lists the source: a layer among its inputs, a model among
its inputs or its outputs.  These lists are the `roles` of the target, and `Document.Declares`
says that an id is in one of them.
-/

namespace NetDiagram

namespace Entity

lemma id_of_layer? {e : Entity} {l : Layer} (h : e.layer? = some l) : l.id = e.id := by
  cases e with
  | layer l' =>
    obtain rfl : l' = l := by simpa [layer?] using h
    rfl
  | _ => simp [layer?] at h

lemma id_of_model? {e : Entity} {m : Model} (h : e.model? = some m) : m.id = e.id := by
  cases e with
  | model m' =>
    obtain rfl : m' = m := by simpa [model?] using h
    rfl
  | _ => simp [model?] at h

/-- The entities of one kind have their ids in the order of all entities. -/
lemma map_id_filterMap_sublist {α : Type} {f : Entity → Option α} {g : α → NodeId}
    (h : ∀ e x, f e = some x → g x = e.id) (es : List Entity) :
    ((es.filterMap f).map g).Sublist (es.map Entity.id) := by
  induction es with
  | nil => exact List.Sublist.refl _
  | cons e rest ih =>
    cases hf : f e with
    | none =>
      rw [List.filterMap_cons_none hf]
      exact ih.cons _
    | some x =>
      rw [List.filterMap_cons_some hf, List.map_cons, List.map_cons, h e x hf]
      exact ih.cons_cons _

end Entity

namespace Document

variable {d : Document} {id : NodeId} {e : Entity}

lemma get?_of_mem (h : e ∈ d.entities) : d.get? e.id = some e := by
  obtain ⟨entities, nodup⟩ := d
  simp only [get?] at h ⊢
  induction entities with
  | nil => simp at h
  | cons first rest ih =>
    rw [List.map_cons, List.nodup_cons] at nodup
    rcases List.mem_cons.1 h with rfl | hrest
    · simp
    · have hne : first.id ≠ e.id := by
        intro heq
        exact nodup.1 (heq ▸ List.mem_map_of_mem hrest)
      rw [List.find?_cons_of_neg (by simpa using hne)]
      exact ih nodup.2 hrest

/-- An id is looked up by searching the list. -/
theorem get?_eq_some_iff : d.get? id = some e ↔ e ∈ d.entities ∧ e.id = id := by
  constructor
  · intro h
    exact ⟨mem_of_get? h, id_of_get? h⟩
  · rintro ⟨hmem, rfl⟩
    exact get?_of_mem hmem

lemma mem_layers_iff {l : Layer} : l ∈ d.layers ↔ d.get? l.id = some (.layer l) := by
  unfold layers
  rw [List.mem_filterMap]
  constructor
  · rintro ⟨e, hmem, he⟩
    cases e with
    | layer l' =>
      obtain rfl : l' = l := by simpa [Entity.layer?] using he
      exact get?_of_mem hmem
    | _ => simp [Entity.layer?] at he
  · intro h
    exact ⟨.layer l, mem_of_get? h, rfl⟩

lemma mem_models_iff {m : Model} : m ∈ d.models ↔ d.get? m.id = some (.model m) := by
  unfold models
  rw [List.mem_filterMap]
  constructor
  · rintro ⟨e, hmem, he⟩
    cases e with
    | model m' =>
      obtain rfl : m' = m := by simpa [Entity.model?] using he
      exact get?_of_mem hmem
    | _ => simp [Entity.model?] at he
  · intro h
    exact ⟨.model m, mem_of_get? h, rfl⟩

lemma nodup_map_id_layers (d : Document) : (d.layers.map (·.id)).Nodup :=
  d.nodup.sublist (Entity.map_id_filterMap_sublist (fun _ _ => Entity.id_of_layer?) d.entities)

lemma nodup_map_id_models (d : Document) : (d.models.map (·.id)).Nodup :=
  d.nodup.sublist (Entity.map_id_filterMap_sublist (fun _ _ => Entity.id_of_model?) d.entities)

lemma mem_entrances_iff {l : Layer} :
    l ∈ d.entrances ↔ d.get? l.id = some (.layer l) ∧ l.entrance = true := by
  unfold entrances
  rw [List.mem_filter, mem_layers_iff]

end Document

/-! ## Declared predecessors -/

/-- The ids that a model lists in the argument of the given name; none if there is no such
argument. -/
def Model.listed (m : Model) (name : String) : List NodeId :=
  ((m.arg? name).map Argument.idList).getD []

/-- All that a model lists, as its inputs or as its outputs. -/
def Model.members (m : Model) : List NodeId :=
  m.listed inputsName ++ m.listed outputsName

/-- The lists of ids that an entity waits for. -/
def Entity.roles : Entity → List (List NodeId)
  | layer l => [l.input.ids]
  | model m => [m.listed Model.inputsName, m.listed Model.outputsName]
  | _ => []

@[simp] lemma Entity.flatten_roles_layer (l : Layer) :
    (layer l).roles.flatten = l.input.ids := by
  simp [roles]

@[simp] lemma Entity.flatten_roles_model (m : Model) : (model m).roles.flatten = m.members := by
  simp [roles, Model.members]

namespace Document

/-- The lists of ids that the entity of an id waits for. -/
def roles (d : Document) (id : NodeId) : List (List NodeId) :=
  ((d.get? id).map Entity.roles).getD []

lemma roles_of_get? {d : Document} {id : NodeId} {e : Entity} (h : d.get? id = some e) :
    d.roles id = e.roles := by
  simp [roles, h]

/-- The entity `n` is a layer with `p` among its inputs, or a model with `p` among its inputs or
its outputs. -/
def Declares (d : Document) (n p : NodeId) : Prop :=
  (∃ l, d.get? n = some (.layer l) ∧ p ∈ l.input.ids) ∨
    ∃ m, d.get? n = some (.model m) ∧ p ∈ m.members

lemma declares_iff {d : Document} {n p : NodeId} : d.Declares n p ↔ p ∈ (d.roles n).flatten := by
  unfold Declares roles
  cases d.get? n with
  | none => simp
  | some e => cases e <;> simp [Entity.roles, Model.members]

/-- The entity `p` is a layer with `n` among its outputs. -/
def Feeds (d : Document) (p n : NodeId) : Prop :=
  ∃ l, d.get? p = some (.layer l) ∧ n ∈ l.output

end Document

end NetDiagram
