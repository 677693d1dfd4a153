import Mathlib.Order.Bounds.Basic
import NetDiagram.Proofs.Emission

/-!
# Which nodes are written

The order in which a walk meets the nodes of a document depends on the order of its entrances and
connections.  The set of the nodes that it writes does not: it is the least set that contains the
entrances and, with all that a node declares and is connected to, that node (`FlowClosed`).

The two halves come from different invariants.  Every node of a transcript is justified by the
nodes before it, so that it is in every closed set; and when nothing is left to be followed, every
connection has been delivered, so that the written nodes are a closed set themselves.
-/

namespace NetDiagram.Flow

/-! ## Closed sets -/

/-- A set of ids that contains the entrances, and every node for which all that it declares is in
the set and connected to it.  A join that declares nothing is never complete. -/
structure FlowClosed (d : Document) (E : Set NodeId) : Prop where
  entrance : ∀ l ∈ d.entrances, l.id ∈ E
  single : ∀ l ∈ d.layers, ∀ p, l.input = .single p → p ∈ E → d.Feeds p l.id → l.id ∈ E
  many : ∀ l ∈ d.layers, ∀ ids, l.input = .many ids → ids ≠ [] →
    (∀ id ∈ ids, id ∈ E ∧ d.Feeds id l.id) → l.id ∈ E
  model : ∀ m ∈ d.models, m.members ≠ [] → (∀ id ∈ m.members, id ∈ E ∧ d.Feeds id m.id) →
    m.id ∈ E

variable {d : Document} {nodes : List Entity} {E : Set NodeId}

lemma FlowClosed.mem_of_justified (h : FlowClosed d E) {e : Entity} {s : Statement}
    (hget : d.get? e.id = some e) (hjust : Justified d nodes e s)
    (hnodes : ∀ x ∈ nodes, d.get? x.id = some x ∧ x.id ∈ E) : e.id ∈ E := by
  have hlayer : ∀ {p : Layer} {n : NodeId}, .layer p ∈ nodes → n ∈ p.output →
      p.id ∈ E ∧ d.Feeds p.id n := by
    intro p n hp hn
    obtain ⟨hpget, hpE⟩ := hnodes _ hp
    exact ⟨hpE, p, hpget, hn⟩
  cases hjust with
  | @layer l _ hcalled =>
    have hl : l ∈ d.layers := Document.mem_layers_iff.2 hget
    cases hcalled with
    | entrance hmark => exact h.entrance l (Document.mem_entrances_iff.2 ⟨hget, hmark⟩)
    | single hinput hmem hfeeds =>
      obtain ⟨hpE, hp⟩ := hlayer hmem hfeeds
      exact h.single l hl _ hinput hpE hp
    | @many ps hinput hdeclared hmem =>
      refine h.many l hl _ hinput (by simpa using hdeclared) fun id hid => ?_
      obtain ⟨p, hp, rfl⟩ := List.mem_map.1 hid
      exact hlayer (hmem p hp).1 (hmem p hp).2
  | @model m hdeclared hmem =>
    refine h.model m (Document.mem_models_iff.2 hget) hdeclared fun id hid => ?_
    obtain ⟨p, hp, rfl, hn⟩ := hmem id hid
    exact hlayer hp hn

lemma Transcript.subset_flowClosed {statements : List Statement}
    (h : Transcript d nodes statements) (hE : FlowClosed d E) : ∀ e ∈ nodes, e.id ∈ E := by
  induction h with
  | nil => simp
  | snoc hbefore hget hjust ih =>
    intro e he
    rcases List.mem_append.1 he with hold | hlast
    · exact ih e hold
    · rw [List.mem_singleton.1 hlast]
      exact hE.mem_of_justified hget hjust fun x hx => ⟨hbefore.get?_of_mem hx, ih x hx⟩

/-! ## Finished walks -/

namespace Coherent

variable {ledger : Ledger} {emitted : List NodeId}

/-- When nothing is left to be followed, a node is written if all that it declares is written and
connected to it. -/
lemma mem_of_covered (h : Coherent d [] [] ledger emitted) {n : NodeId}
    (hcov : Covered (d.roles n) {p | p ∈ emitted ∧ d.Feeds p n}) : n ∈ emitted := by
  by_contra hnot
  refine hnot (h.released n ⟨hcov.1, fun p hp => ?_⟩)
  obtain ⟨hmem, hfeeds⟩ := hcov.2 p hp
  rcases h.delivered p n hmem hfeeds with ⟨l, hlink, -⟩ | harr | ⟨-, hn⟩
  · simp at hlink
  · exact harr
  · exact absurd hn hnot

/-- When nothing is left to be followed, the written nodes are a closed set. -/
lemma flowClosed (h : Coherent d [] [] ledger emitted) : FlowClosed d {id | id ∈ emitted} where
  entrance l hl := (h.entered l hl).resolve_left (by simp)
  single l hl p hinput hp hfeeds := by
    refine h.mem_of_covered ?_
    rw [Document.roles_of_get? (Document.mem_layers_iff.1 hl), Covered,
      Entity.flatten_roles_layer, hinput]
    simpa [Inputs.ids] using ⟨hp, hfeeds⟩
  many l hl ids hinput hne hall := by
    refine h.mem_of_covered ?_
    rw [Document.roles_of_get? (Document.mem_layers_iff.1 hl), Covered,
      Entity.flatten_roles_layer, hinput]
    exact ⟨hne, hall⟩
  model m hm hne hall := by
    refine h.mem_of_covered ?_
    rw [Document.roles_of_get? (Document.mem_models_iff.1 hm), Covered,
      Entity.flatten_roles_model]
    exact ⟨hne, hall⟩

end Coherent

/-- The written ids of a finished walk are the least closed set. -/
theorem Walk.Reached.isLeast {t : Draft} (h : Walk.Reached d ⟨[], [], t⟩) :
    IsLeast {E | FlowClosed d E} {id | id ∈ t.emitted} := by
  refine ⟨h.coherent.flowClosed, fun E hE id hid => ?_⟩
  obtain ⟨nodes, hnodes⟩ := h.transcribes
  obtain ⟨e, he, rfl⟩ := List.mem_map.1 (hnodes.emitted ▸ hid)
  exact hnodes.transcript.subset_flowClosed hE e he

/-! ## Models -/

/-- The nodes have all that the model lists, and are connected to it. -/
def JoinedBy (m : Model) (nodes : List Entity) : Prop :=
  m.members ≠ [] ∧ ∀ id ∈ m.members, ∃ p, .layer p ∈ nodes ∧ p.id = id ∧ m.id ∈ p.output

namespace Draft.Transcribes

variable {t : Draft}

lemma model_mem_iff (h : t.Transcribes d nodes) (hreached : Walk.Reached d ⟨[], [], t⟩)
    {m : Model} (hm : m ∈ d.models) : .model m ∈ nodes ↔ JoinedBy m nodes := by
  constructor
  · intro hmem
    obtain ⟨before, s, hsub, hjust⟩ := h.transcript.exists_justified hmem
    cases hjust with
    | model hne hall =>
      refine ⟨hne, fun id hid => ?_⟩
      obtain ⟨p, hp, hrest⟩ := hall id hid
      exact ⟨p, hsub hp, hrest⟩
  · rintro ⟨hne, hall⟩
    refine (h.mem_iff (Document.mem_models_iff.1 hm)).2 ?_
    refine hreached.coherent.flowClosed.model m hm hne fun id hid => ?_
    obtain ⟨p, hp, rfl, hn⟩ := hall id hid
    have hget := h.transcript.get?_of_mem hp
    exact ⟨(h.mem_iff hget).1 hp, p, hget, hn⟩

lemma unreleasedModel_mem_iff (h : t.Transcribes d nodes) {m : Model} {waiting : Bool} :
    .unreleasedModel m waiting ∈ (t.finish d).notices ↔
      m ∈ d.models ∧ .model m ∉ nodes ∧ waiting = t.ledger.isPending m.id := by
  -- Of the three groups of notices only the last one is about models.
  have hscope : .unreleasedModel m waiting ∉ t.scope.notices := by
    intro hmem
    obtain ⟨owner, a, l, heq⟩ := h.scope.notices _ hmem
    simp at heq
  have hunused : .unreleasedModel m waiting ∉ unusedLayers d t := by
    simp [unusedLayers]
  simp only [Draft.finish, List.mem_append, hscope, hunused, false_or, unreleasedModels,
    List.mem_map, List.mem_filter, Notice.unreleasedModel.injEq]
  constructor
  · rintro ⟨m', ⟨hm, hnot⟩, rfl, hwaiting⟩
    rw [h.mem_iff (Document.mem_models_iff.1 hm)]
    exact ⟨hm, by simpa using hnot, hwaiting.symm⟩
  · rintro ⟨hm, hnot, hwaiting⟩
    rw [h.mem_iff (Document.mem_models_iff.1 hm)] at hnot
    exact ⟨m, ⟨hm, by simpa using hnot⟩, rfl, hwaiting.symm⟩

end Draft.Transcribes

lemma mem_models_of_nodes {m : Model} :
    m ∈ nodes.filterMap Entity.model? ↔ .model m ∈ nodes := by
  rw [List.mem_filterMap]
  constructor
  · rintro ⟨e, he, heq⟩
    cases e with
    | model m' =>
      obtain rfl : m' = m := by simpa [Entity.model?] using heq
      exact he
    | _ => simp [Entity.model?] at heq
  · intro hm
    exact ⟨_, hm, rfl⟩

lemma map_id_models_sublist (nodes : List Entity) :
    ((nodes.filterMap Entity.model?).map (·.id)).Sublist (nodes.map Entity.id) :=
  Entity.map_id_filterMap_sublist (fun _ _ => Entity.id_of_model?) nodes

/-- The endpoints are the variables of the models that can be joined, each once. -/
lemma Draft.Transcribes.exists_models {t : Draft} (h : t.Transcribes d nodes)
    (hreached : Walk.Reached d ⟨[], [], t⟩) :
    ∃ models : List Model, (models.map (·.id)).Nodup ∧
      (∀ m, m ∈ models ↔ m ∈ d.models ∧ JoinedBy m nodes) ∧
      t.endpoints = models.map (·.var) := by
  refine ⟨nodes.filterMap Entity.model?, ?_, fun m => ?_, ?_⟩
  · have hnodup := hreached.joined.nodup
    rw [h.emitted] at hnodup
    exact hnodup.sublist (map_id_models_sublist nodes)
  · rw [mem_models_of_nodes]
    constructor
    · intro hmem
      have hm := Document.mem_models_iff.2 (h.transcript.get?_of_mem hmem)
      exact ⟨hm, (h.model_mem_iff hreached hm).1 hmem⟩
    · rintro ⟨hm, hjoined⟩
      exact (h.model_mem_iff hreached hm).2 hjoined
  · rw [h.endpoints, List.map_filterMap]
    rfl

/-- **Completeness of the emission.**  The nodes of a compilation are the least closed set.  Each
model that can be joined has exactly one endpoint, and the others are reported. -/
theorem emission_isLeast_of_compile (d : Document) (c : Compilation) (h : compile d = .ok c) :
    ∃ nodes, Emission d nodes c ∧
      IsLeast {E | FlowClosed d E} {id | id ∈ nodes.map Entity.id} ∧
      (∃ models : List Model, (models.map (·.id)).Nodup ∧
        (∀ m, m ∈ models ↔ m ∈ d.models ∧ JoinedBy m nodes) ∧
        c.endpoints = models.map (·.var)) ∧
      ∀ m, (∃ waiting, .unreleasedModel m waiting ∈ c.notices) ↔
        m ∈ d.models ∧ ¬ JoinedBy m nodes := by
  obtain ⟨t, hreached, rfl⟩ := exists_reached_of_compile h
  obtain ⟨nodes, hnodes⟩ := hreached.transcribes
  refine ⟨nodes, hnodes.emission hreached.joined.nodup, hnodes.emitted ▸ hreached.isLeast,
    hnodes.exists_models hreached, fun m => ?_⟩
  constructor
  · rintro ⟨waiting, hmem⟩
    obtain ⟨hm, hnot, -⟩ := hnodes.unreleasedModel_mem_iff.1 hmem
    exact ⟨hm, mt (hnodes.model_mem_iff hreached hm).2 hnot⟩
  · rintro ⟨hm, hnot⟩
    refine ⟨_, hnodes.unreleasedModel_mem_iff.2 ⟨hm, ?_, rfl⟩⟩
    exact mt (hnodes.model_mem_iff hreached hm).1 hnot

/-- The branches of `diamond` and their join are a least closed set. -/
theorem emission_isLeast_diamond :
    compile diamond = .ok diamondResult ∧
      ∃ nodes, Emission diamond nodes diamondResult ∧
        IsLeast {E | FlowClosed diamond E} {id | id ∈ nodes.map Entity.id} := by
  obtain ⟨nodes, hemission, hleast, -⟩ :=
    emission_isLeast_of_compile diamond diamondResult compile_diamond
  exact ⟨compile_diamond, nodes, hemission, hleast⟩

end NetDiagram.Flow
