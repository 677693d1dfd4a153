import Mathlib.Data.List.Nodup
import NetDiagram.Proofs.ForwardReferences
import NetDiagram.Proofs.OrderFree

/-!
# Every layer and every model is accounted for

When a compilation ends, it looks back at three records that were kept apart all the way: the nodes
that have statements, the entities that were written inside statements, and the joins that were
opened.  From these it reports what was left out.

This file shows that the three records fit.  A layer is written, or written inside a statement, or
reported as unused; a model is written, or reported as waiting or as never reached; and of these
exactly one is true, once.

## Main statements

* `Draft.Transcribes.warned_unused`, `Draft.Transcribes.warned_unreleased`: the ids that are
  reported, in document order.
* `Draft.Transcribes.exists_layerFate`, `Draft.Transcribes.exists_modelFate`: what becomes of a
  layer and of a model.
-/

namespace NetDiagram.Flow

variable {d : Document} {nodes : List Entity} {t : Draft}

/-! ## Warnings by their codes -/

/-- The layer or the model that a notice is about. -/
def Notice.subject? : Notice → Option NodeId
  | unusedLayer l => some l.id
  | unreleasedModel m _ => some m.id
  | forwardReference _ _ l => some l.id
  | coveredFile _ => none

/-- What the notices with a code of the given name are about, in order. -/
def subjects (name : String) (notices : List Notice) : List NodeId :=
  notices.filterMap fun n =>
    if n.diagnostic.code.map Code.name = some name then n.subject? else none

/-- What the warnings of a compilation with a code of the given name are about, in order. -/
def Compilation.warned (c : Compilation) (name : String) : List NodeId :=
  subjects name c.notices

@[simp] lemma subjects_append (name : String) (xs ys : List Notice) :
    subjects name (xs ++ ys) = subjects name xs ++ subjects name ys :=
  List.filterMap_append

lemma subjects_of_code {code : Code} {notices : List Notice} (h : ∀ n ∈ notices, n.code = code)
    (name : String) :
    subjects name notices = if code.name = name then notices.filterMap Notice.subject? else [] := by
  unfold subjects
  split
  · rename_i hname
    refine List.filterMap_congr fun n hn => ?_
    rw [if_pos (by rw [Notice.code_diagnostic, h n hn, Option.map_some, hname])]
  · rename_i hname
    refine List.filterMap_eq_nil_iff.2 fun n hn => ?_
    rw [if_neg (by rw [Notice.code_diagnostic, h n hn, Option.map_some]; simpa using hname)]

namespace Draft.Transcribes

lemma code_of_mem_notices (h : t.Transcribes d nodes) {n : Notice} (hn : n ∈ t.scope.notices) :
    n.code = .forwardReference := by
  obtain ⟨owner, a, l, rfl⟩ := h.scope.notices n hn
  rfl

/-- The three groups of notices, of which a name selects at most one. -/
lemma warned_finish (h : t.Transcribes d nodes) (name : String) :
    (t.finish d).warned name =
      (if "W004" = name then t.scope.notices.filterMap Notice.subject? else []) ++
        (if "W001" = name then (unusedLayers d t).filterMap Notice.subject? else []) ++
        if "W002" = name then (unreleasedModels d t).filterMap Notice.subject? else [] := by
  unfold Compilation.warned Draft.finish
  rw [subjects_append, subjects_append, subjects_of_code fun _ => h.code_of_mem_notices,
    subjects_of_code fun _ => code_of_mem_unusedLayers,
    subjects_of_code fun _ => code_of_mem_unreleasedModels]
  rfl

lemma warned_unused (h : t.Transcribes d nodes) :
    (t.finish d).warned "W001" =
      (d.layers.filter fun l =>
        !(t.emitted.contains l.id || t.scope.inlined.contains l.id)).map (·.id) := by
  simp [h.warned_finish, unusedLayers, List.filterMap_map, Function.comp_def, Notice.subject?]

lemma warned_unreleased (h : t.Transcribes d nodes) :
    (t.finish d).warned "W002" =
      (d.models.filter fun m => !t.emitted.contains m.id).map (·.id) := by
  simp [h.warned_finish, unreleasedModels, List.filterMap_map, Function.comp_def, Notice.subject?]

end Draft.Transcribes

/-! ## Counting -/

lemma count_map_filter {α : Type} {f : α → NodeId} {p : α → Bool} {xs : List α} {x : α}
    (hnodup : (xs.map f).Nodup) (hx : x ∈ xs) :
    ((xs.filter p).map f).count (f x) = if p x then 1 else 0 := by
  have hselected : ((xs.filter p).map f).Nodup := hnodup.sublist (List.filter_sublist.map f)
  have hmem : f x ∈ (xs.filter p).map f ↔ p x = true := by
    constructor
    · intro h
      obtain ⟨y, hy, heq⟩ := List.mem_map.1 h
      obtain rfl := List.inj_on_of_nodup_map hnodup (List.mem_filter.1 hy).1 hx heq
      exact (List.mem_filter.1 hy).2
    · intro h
      exact List.mem_map_of_mem (List.mem_filter.2 ⟨hx, h⟩)
  rw [hselected.count]
  simp only [hmem]

/-- The number of statements of an entity, given the nodes that have statements. -/
def statementCount (nodes : List Entity) (id : NodeId) : Nat :=
  (nodes.map Entity.id).count id

/-- The number of endpoints of a model, given the nodes that have statements. -/
def endpointCount (nodes : List Entity) (id : NodeId) : Nat :=
  ((nodes.filterMap Entity.model?).map (·.id)).count id

namespace Draft.Transcribes

lemma statementCount_eq (h : t.Transcribes d nodes) (hnodup : t.emitted.Nodup) (id : NodeId) :
    statementCount nodes id = if id ∈ t.emitted then 1 else 0 := by
  rw [statementCount, ← h.emitted, hnodup.count]

lemma endpointCount_eq (h : t.Transcribes d nodes) (hnodup : t.emitted.Nodup) {m : Model}
    (hm : m ∈ d.models) : endpointCount nodes m.id = if m.id ∈ t.emitted then 1 else 0 := by
  have hmodels : ((nodes.filterMap Entity.model?).map (·.id)).Nodup := by
    rw [h.emitted] at hnodup
    exact hnodup.sublist (map_id_models_sublist nodes)
  have hmem : m.id ∈ (nodes.filterMap Entity.model?).map (·.id) ↔ m.id ∈ t.emitted := by
    constructor
    · intro hid
      rw [h.emitted]
      exact (map_id_models_sublist nodes).subset hid
    · intro hid
      have hnode := (h.mem_iff (Document.mem_models_iff.1 hm)).2 hid
      exact List.mem_map_of_mem (mem_models_of_nodes.2 hnode)
  rw [endpointCount, hmodels.count]
  simp only [hmem]

lemma count_warned_unused (h : t.Transcribes d nodes) {l : Layer} (hl : l ∈ d.layers) :
    ((t.finish d).warned "W001").count l.id =
      if l.id ∈ t.emitted ∨ l.id ∈ t.scope.inlined then 0 else 1 := by
  rw [h.warned_unused, count_map_filter d.nodup_map_id_layers hl]
  by_cases hemitted : l.id ∈ t.emitted <;> by_cases hin : l.id ∈ t.scope.inlined <;>
    simp [hemitted, hin]

lemma count_warned_unreleased (h : t.Transcribes d nodes) {m : Model} (hm : m ∈ d.models) :
    ((t.finish d).warned "W002").count m.id = if m.id ∈ t.emitted then 0 else 1 := by
  rw [h.warned_unreleased, count_map_filter d.nodup_map_id_models hm]
  by_cases hemitted : m.id ∈ t.emitted <;> simp [hemitted]

end Draft.Transcribes

/-! ## Layers -/

/-- What becomes of a layer. -/
inductive LayerFate where
  /-- It has a statement. -/
  | written
  /-- It is written inside a statement. -/
  | inside
  | unused

/-- The layer has that fate in a compilation with statements for the given nodes. -/
def LayerFate.Holds (d : Document) (nodes : List Entity) (c : Compilation) (l : Layer) :
    LayerFate → Prop
  | written =>
    l.mode ≠ .ca ∧ statementCount nodes l.id = 1 ∧ (c.warned "W001").count l.id = 0
  | inside =>
    l.mode = .ca ∧ (∃ e ∈ nodes, Inlines d e l.id) ∧ statementCount nodes l.id = 0 ∧
      (c.warned "W001").count l.id = 0
  | unused =>
    (¬ ∃ e ∈ nodes, Inlines d e l.id) ∧ statementCount nodes l.id = 0 ∧
      (c.warned "W001").count l.id = 1

lemma mode_of_inlines {e : Entity} {l : Layer} (hl : l ∈ d.layers) (h : Inlines d e l.id) :
    l.mode = .ca := by
  obtain ⟨-, e', hget, hcall⟩ := h
  obtain rfl : e' = .layer l :=
    Option.some.inj (hget.symm.trans (Document.mem_layers_iff.1 hl))
  by_contra hmode
  simp [inlineCall?_layer_of_ne_ca hmode] at hcall

lemma LayerFate.Holds.unique {c : Compilation} {l : Layer} {fate fate' : LayerFate}
    (h : fate.Holds d nodes c l) (h' : fate'.Holds d nodes c l) : fate = fate' := by
  cases fate with
  | written =>
    cases fate' with
    | written => rfl
    | inside => exact absurd (h.2.1.symm.trans h'.2.2.1) (by simp)
    | unused => exact absurd (h.2.1.symm.trans h'.2.1) (by simp)
  | inside =>
    cases fate' with
    | written => exact absurd (h'.2.1.symm.trans h.2.2.1) (by simp)
    | inside => rfl
    | unused => exact absurd h.2.1 h'.1
  | unused =>
    cases fate' with
    | written => exact absurd (h'.2.1.symm.trans h.2.1) (by simp)
    | inside => exact absurd h'.2.1 h.1
    | unused => rfl

/-- A layer has one fate. -/
lemma Draft.Transcribes.exists_layerFate (h : t.Transcribes d nodes)
    (hreached : Walk.Reached d ⟨[], [], t⟩) {l : Layer} (hl : l ∈ d.layers) :
    ∃! fate, LayerFate.Holds d nodes (t.finish d) l fate := by
  have hstatements := h.statementCount_eq hreached.joined.nodup l.id
  have hwarned := h.count_warned_unused hl
  have hinlined := h.scope.inlined l.id
  refine existsUnique_of_exists_of_unique ?_ fun _ _ hfate hfate' => hfate.unique hfate'
  by_cases hemitted : l.id ∈ t.emitted
  · have hmode := (hreached.named l (Document.mem_layers_iff.1 hl) hemitted).1
    rw [if_pos hemitted] at hstatements
    rw [if_pos (Or.inl hemitted)] at hwarned
    exact ⟨.written, hmode, hstatements, hwarned⟩
  · rw [if_neg hemitted] at hstatements
    by_cases hin : l.id ∈ t.scope.inlined
    · obtain ⟨e, he, hinlines⟩ := hinlined.1 hin
      rw [if_pos (Or.inr hin)] at hwarned
      exact ⟨.inside, mode_of_inlines hl hinlines, ⟨e, he, hinlines⟩, hstatements, hwarned⟩
    · rw [if_neg (not_or.2 ⟨hemitted, hin⟩)] at hwarned
      exact ⟨.unused, mt hinlined.2 hin, hstatements, hwarned⟩

/-! ## Models -/

/-- What becomes of a model. -/
inductive ModelFate where
  /-- It has a statement. -/
  | written
  /-- Some of what it lists has arrived. -/
  | waiting
  | unreached

/-- The model is reported as not built, for the given reason. -/
structure Unreleased (nodes : List Entity) (c : Compilation) (m : Model) (reason : String) :
    Prop where
  statements : statementCount nodes m.id = 0
  endpoints : endpointCount nodes m.id = 0
  warnings : (c.warned "W002").count m.id = 1
  message : ∃ n ∈ c.notices, n.diagnostic.code.map Code.name = some "W002" ∧
    n.subject? = some m.id ∧
    n.diagnostic.message = "model " ++ ticked (Entity.model m).label ++ reason

/-- The model has that fate in a compilation with statements for the given nodes. -/
def ModelFate.Holds (nodes : List Entity) (c : Compilation) (m : Model) : ModelFate → Prop
  | written =>
    statementCount nodes m.id = 1 ∧ endpointCount nodes m.id = 1 ∧
      (c.warned "W002").count m.id = 0
  | waiting =>
    (∃ p, .layer p ∈ nodes ∧ m.id ∈ p.output) ∧
      Unreleased nodes c m " is still waiting for some of its inputs or outputs"
  | unreached =>
    (¬ ∃ p, .layer p ∈ nodes ∧ m.id ∈ p.output) ∧ Unreleased nodes c m " is never reached"

lemma ModelFate.Holds.unique {c : Compilation} {m : Model} {fate fate' : ModelFate}
    (h : fate.Holds nodes c m) (h' : fate'.Holds nodes c m) : fate = fate' := by
  -- The number of statements tells a written model from the others; being fed tells these apart.
  cases fate with
  | written =>
    cases fate' with
    | written => rfl
    | waiting => exact absurd (h.1.symm.trans h'.2.statements) (by simp)
    | unreached => exact absurd (h.1.symm.trans h'.2.statements) (by simp)
  | waiting =>
    cases fate' with
    | written => exact absurd (h'.1.symm.trans h.2.statements) (by simp)
    | waiting => rfl
    | unreached => exact absurd h.1 h'.1
  | unreached =>
    cases fate' with
    | written => exact absurd (h'.1.symm.trans h.2.statements) (by simp)
    | waiting => exact absurd h'.1 h.1
    | unreached => rfl

namespace Draft.Transcribes

lemma exists_feeds_iff (h : t.Transcribes d nodes) {n : NodeId} :
    (∃ p, .layer p ∈ nodes ∧ n ∈ p.output) ↔ ∃ id ∈ t.emitted, d.Feeds id n := by
  constructor
  · rintro ⟨p, hp, hn⟩
    have hget := h.transcript.get?_of_mem hp
    exact ⟨p.id, (h.mem_iff hget).1 hp, p, hget, hn⟩
  · rintro ⟨id, hid, p, hget, hn⟩
    exact ⟨p, (h.mem_iff hget).2 hid, hn⟩

/-- The report about a model that is not written. -/
lemma unreleased (h : t.Transcribes d nodes) (hnodup : t.emitted.Nodup) {m : Model}
    (hm : m ∈ d.models) (hnot : m.id ∉ t.emitted) :
    Unreleased nodes (t.finish d) m
      (if t.ledger.isPending m.id then " is still waiting for some of its inputs or outputs"
        else " is never reached") where
  statements := by rw [h.statementCount_eq hnodup, if_neg hnot]
  endpoints := by rw [h.endpointCount_eq hnodup hm, if_neg hnot]
  warnings := by rw [h.count_warned_unreleased hm, if_neg hnot]
  message := by
    have hnode := mt (h.mem_iff (Document.mem_models_iff.1 hm)).1 hnot
    exact ⟨_, h.unreleasedModel_mem_iff.2 ⟨hm, hnode, rfl⟩,
      (Notice.code_eq_iff (c := .unreleasedModel)).1 rfl, rfl, by simp [Notice.diagnostic]⟩

/-- A model has one fate. -/
lemma exists_modelFate (h : t.Transcribes d nodes) (hreached : Walk.Reached d ⟨[], [], t⟩)
    {m : Model} (hm : m ∈ d.models) : ∃! fate, ModelFate.Holds nodes (t.finish d) m fate := by
  have hnodup := hreached.joined.nodup
  refine existsUnique_of_exists_of_unique ?_ fun _ _ hfate hfate' => hfate.unique hfate'
  by_cases hemitted : m.id ∈ t.emitted
  · refine ⟨.written, ?_, ?_, ?_⟩
    · rw [h.statementCount_eq hnodup, if_pos hemitted]
    · rw [h.endpointCount_eq hnodup hm, if_pos hemitted]
    · rw [h.count_warned_unreleased hm, if_pos hemitted]
  · have hunreleased := h.unreleased hnodup hm hemitted
    -- A model waits in the ledger exactly if something was written that is connected to it.
    have hpending := hreached.coherent.isPending_iff hemitted
    rw [← h.exists_feeds_iff] at hpending
    by_cases hfed : ∃ p, .layer p ∈ nodes ∧ m.id ∈ p.output
    · rw [if_pos (hpending.2 hfed)] at hunreleased
      exact ⟨.waiting, hfed, hunreleased⟩
    · rw [if_neg (mt hpending.1 hfed)] at hunreleased
      exact ⟨.unreached, hfed, hunreleased⟩

end Draft.Transcribes

/-! ## Compilations -/

/-- The warnings of a compilation come in three groups, in the order of the document. -/
structure WarningsInOrder (d : Document) (c : Compilation) : Prop where
  codes : ∃ i j k, c.notices.map (fun n => n.diagnostic.code.map Code.name) =
    List.replicate i (some "W004") ++ List.replicate j (some "W001") ++
      List.replicate k (some "W002")
  unused : (c.warned "W001").Sublist (d.layers.map (·.id))
  unreleased : (c.warned "W002").Sublist (d.models.map (·.id))

lemma map_codeName_of_code {code : Code} {notices : List Notice}
    (h : ∀ n ∈ notices, n.code = code) :
    notices.map (fun n => n.diagnostic.code.map Code.name) =
      List.replicate notices.length (some code.name) :=
  List.map_eq_replicate_iff.2 fun n hn => Notice.code_eq_iff.1 (h n hn)

lemma Draft.Transcribes.warningsInOrder (h : t.Transcribes d nodes) :
    WarningsInOrder d (t.finish d) where
  codes := by
    refine ⟨t.scope.notices.length, (unusedLayers d t).length, (unreleasedModels d t).length, ?_⟩
    rw [Draft.finish, List.map_append, List.map_append,
      map_codeName_of_code fun _ => h.code_of_mem_notices,
      map_codeName_of_code fun _ => code_of_mem_unusedLayers,
      map_codeName_of_code fun _ => code_of_mem_unreleasedModels]
    rfl
  unused := by
    rw [h.warned_unused]
    exact List.filter_sublist.map _
  unreleased := by
    rw [h.warned_unreleased]
    exact List.filter_sublist.map _

/-- **Everything is accounted for.**  In a compilation every layer has exactly one fate: one
statement, or a place inside the statement of a node, or one warning `W001`.  Every model has
exactly one fate: one statement and one endpoint, or one warning `W002`, which says that it is
waiting if a written layer is connected to it, and that it is never reached otherwise.  There are no
other warnings but those with code `W004`, which come first. -/
theorem accounted_once (d : Document) (c : Compilation) (h : compile d = .ok c) :
    ∃ nodes, Emission d nodes c ∧
      c.endpoints = (nodes.filterMap Entity.model?).map (·.var) ∧
      (∀ l ∈ d.layers, ∃! fate, LayerFate.Holds d nodes c l fate) ∧
      (∀ m ∈ d.models, ∃! fate, ModelFate.Holds nodes c m fate) ∧
      WarningsInOrder d c := by
  obtain ⟨t, hreached, rfl⟩ := exists_reached_of_compile h
  obtain ⟨nodes, hnodes⟩ := hreached.transcribes
  have hendpoints : t.endpoints = (nodes.filterMap Entity.model?).map (·.var) := by
    rw [hnodes.endpoints, List.map_filterMap]
    rfl
  exact ⟨nodes, hnodes.emission hreached.joined.nodup, hendpoints,
    fun l hl => hnodes.exists_layerFate hreached hl,
    fun m hm => hnodes.exists_modelFate hreached hm, hnodes.warningsInOrder⟩

/-- An inline layer. -/
def innerLayer : Layer where
  id := .ofText "k"
  var := "k"
  className := "Dense"
  mode := .ca

/-- A layer that is not connected. -/
def strayLayer : Layer where
  id := .ofText "r"
  var := "r"
  className := "Dense"
  output := [.ofText "w", .ofText "v"]

/-- A model that lists a layer by its two roles. -/
def listingModel (id inputs outputs : String) : Model where
  id := .ofText id
  var := id
  args := [⟨"inputs", inputs, .id⟩, ⟨"outputs", outputs, .id⟩]

/-- A document with a layer and a model of every fate. -/
def remnants : Document where
  entities :=
    [.unit
      { id := .ofText "u", className := "Wrap", source := "wrappers", args := [⟨"of", "k", .id⟩] },
    .layer innerLayer,
    .layer strayLayer,
    .layer { innerLayer with id := .ofText "q" },
    .layer
      { id := .ofText "a", var := "x", className := "Input", entrance := true
        args := [⟨"with", "u", .id⟩, ⟨"like", "r", .id⟩], output := [.ofText "m", .ofText "w"] },
    .model (listingModel "v" "r" "r"),
    .model (listingModel "m" "a" "a"),
    .model (listingModel "w" "a" "r")]
  nodup := by decide +kernel

/-- The compilation of `remnants`. -/
def remnantsResult : Compilation where
  statements :=
    [⟨"x", "layers", "Input", "with=wrappers.Wrap(of=layers.Dense()), like=r", none⟩,
    ⟨"m", "models", "Model", "inputs=x, outputs=x", none⟩]
  endpoints := ["m"]
  placeholders := []
  sources := ["layers", "wrappers", "models"]
  notices :=
    [.forwardReference
      (.layer
        { id := .ofText "a", var := "x", className := "Input", entrance := true
          args := [⟨"with", "u", .id⟩, ⟨"like", "r", .id⟩]
          output := [.ofText "m", .ofText "w"] })
      ⟨"like", "r", .id⟩ strayLayer,
    .unusedLayer strayLayer, .unusedLayer { innerLayer with id := .ofText "q" },
    .unreleasedModel (listingModel "v" "r" "r") false,
    .unreleasedModel (listingModel "w" "a" "r") true]

lemma compile_remnants : compile remnants = .ok remnantsResult :=
  compile_of_evaluate (k := 9) (n := 7) (by cbv) (by rfl)

/-- The fates of two layers and two models of `remnants`. -/
theorem accounted_once_remnants :
    compile remnants = .ok remnantsResult ∧
      ∃ nodes, Emission remnants nodes remnantsResult ∧
        LayerFate.Holds remnants nodes remnantsResult innerLayer .inside ∧
        LayerFate.Holds remnants nodes remnantsResult strayLayer .unused ∧
        ModelFate.Holds nodes remnantsResult (listingModel "m" "a" "a") .written ∧
        ModelFate.Holds nodes remnantsResult (listingModel "w" "a" "r") .waiting := by
  obtain ⟨nodes, hnodes, -, hlayers, hmodels, -⟩ :=
    accounted_once remnants remnantsResult compile_remnants
  have hunused : remnantsResult.warned "W001" = [.ofText "r", .ofText "q"] := by rfl
  have hunreleased : remnantsResult.warned "W002" = [.ofText "v", .ofText "w"] := by rfl
  -- The other fates are excluded by the mode of the layer or by the warnings that were counted.
  refine ⟨compile_remnants, nodes, hnodes, ?_, ?_, ?_, ?_⟩
  · obtain ⟨fate, hfate, -⟩ := hlayers innerLayer (Document.mem_layers_iff.2 (by cbv))
    cases fate with
    | written => exact absurd rfl hfate.1
    | inside => exact hfate
    | unused => exact absurd hfate.2.2 (by rw [hunused]; decide +kernel)
  · obtain ⟨fate, hfate, -⟩ := hlayers strayLayer (Document.mem_layers_iff.2 (by cbv))
    cases fate with
    | written => exact absurd hfate.2.2 (by rw [hunused]; decide +kernel)
    | inside => exact absurd hfate.1 (by decide)
    | unused => exact hfate
  · obtain ⟨fate, hfate, -⟩ :=
      hmodels (listingModel "m" "a" "a") (Document.mem_models_iff.2 (by cbv))
    cases fate with
    | written => exact hfate
    | waiting => exact absurd hfate.2.warnings (by rw [hunreleased]; decide +kernel)
    | unreached => exact absurd hfate.2.warnings (by rw [hunreleased]; decide +kernel)
  · obtain ⟨fate, hfate, -⟩ :=
      hmodels (listingModel "w" "a" "r") (Document.mem_models_iff.2 (by cbv))
    cases fate with
    | written => exact absurd hfate.2.2 (by rw [hunreleased]; decide +kernel)
    | waiting => exact hfate
    | unreached =>
      -- Waiting and unreached models have the same counts, so here the message decides.
      have hmessages : ∀ n ∈ remnantsResult.notices,
          n.subject? = some (listingModel "w" "a" "r").id →
            n.diagnostic.message ≠ "model " ++
              ticked (Entity.model (listingModel "w" "a" "r")).label ++ " is never reached" := by
        decide +kernel
      obtain ⟨n, hn, -, hsubject, hmessage⟩ := hfate.2.message
      exact absurd hmessage (hmessages n hn hsubject)

end NetDiagram.Flow
