import NetDiagram.Proofs.Findings
import NetDiagram.Proofs.Reordering

/-!
# Compilations of reordered documents

The order of the entities of a document, and of the outputs of its layers, decides in which order
a walk meets the nodes, when the joins are complete, and which expressions are already known when a
statement is written.  This file shows that it decides nothing else.

First the result of a finished walk is brought into a form that mentions the written ids only as a
list without repetition: each statement is a function of its id (`statementAt`), and so is each
endpoint; parameters, import groups and warnings are given by membership.  Entrances have to be
without inputs for this, because one that has inputs is called with them only if they reach it
first.  Then the written ids of two reordered documents are the same up to their order, since
both are the least closed set.

The one exception are the warnings about forward references, which tell the order.
-/

namespace NetDiagram.Flow

variable {d d' : Document} {nodes : List Entity}

/-! ## Statements by id -/

/-- What a layer is called with: the variables of its inputs, if it has any. -/
def inputCall (d : Document) (l : Layer) : Option String :=
  if l.input.ids = [] then none else some (bracket (Draft.predecessorVars d l.input.ids))

/-- The statement of an entity. -/
def statementFor? (d : Document) : Entity → Option Statement
  | .layer l => some ⟨l.var, layerSource, l.className, argsText d l.args, inputCall d l⟩
  | .model m => some ⟨m.var, modelSource, m.className, argsText d m.args, none⟩
  | _ => none

/-- The statement of the entity of an id. -/
def statementAt (d : Document) (id : NodeId) : Option Statement :=
  (d.get? id).bind (statementFor? d)

/-- The endpoint of the model of an id. -/
def endpointAt (d : Document) (id : NodeId) : Option String :=
  (d.get? id).bind modelVar?

/-- No entrance has inputs. -/
def PlainEntrances (d : Document) : Prop :=
  ∀ l ∈ d.entrances, l.input.ids = []

/-- The call of a layer is determined by its inputs. -/
lemma Called.eq_inputCall {l : Layer} {call : Option String} (h : Called nodes l call)
    (hnodes : ∀ x ∈ nodes, d.get? x.id = some x)
    (hentrance : l.entrance = true → l.input.ids = []) : call = inputCall d l := by
  cases h with
  | entrance hmark => rw [inputCall, if_pos (hentrance hmark)]
  | @single p hinput hmem =>
    have hp : d.get? p.id = some (.layer p) := hnodes _ hmem
    have hvars : Draft.predecessorVars d ([p].map (·.id)) = [p].map (·.var) :=
      predecessorVars_map_id (by simpa using hp)
    have hids : l.input.ids = [p].map (·.id) := by rw [hinput]; rfl
    rw [inputCall, if_neg (by simp [hids]), hids, hvars]
    rfl
  | @many ps hinput hdeclared hmem =>
    have hvars := predecessorVars_map_id fun p hp => hnodes _ (hmem p hp).1
    have hids : l.input.ids = ps.map (·.id) := by rw [hinput]; rfl
    rw [inputCall, if_neg (by simpa [hids] using hdeclared), hids, hvars]

lemma Justified.statementAt_eq {e : Entity} {s : Statement} (h : Justified d nodes e s)
    (hplain : PlainEntrances d) (hget : d.get? e.id = some e)
    (hnodes : ∀ x ∈ nodes, d.get? x.id = some x) : statementAt d e.id = some s := by
  rw [statementAt, hget, Option.bind_some]
  cases h with
  | @layer l call hcalled =>
    have hentrance : l.entrance = true → l.input.ids = [] := fun hmark =>
      hplain l (Document.mem_entrances_iff.2 ⟨hget, hmark⟩)
    rw [hcalled.eq_inputCall hnodes hentrance]
    rfl
  | model _ _ => rfl

lemma Transcript.statements_eq {statements : List Statement} (h : Transcript d nodes statements)
    (hplain : PlainEntrances d) : statements = (nodes.map Entity.id).filterMap (statementAt d) := by
  induction h with
  | nil => rfl
  | snoc hbefore hget hjust ih =>
    have hat := hjust.statementAt_eq hplain hget fun x hx => hbefore.get?_of_mem hx
    rw [List.map_append, List.filterMap_append, ← ih]
    simp [hat]

namespace Draft.Transcribes

variable {t : Draft}

lemma statements_eq (h : t.Transcribes d nodes) (hplain : PlainEntrances d) :
    t.statements = t.emitted.filterMap (statementAt d) := by
  rw [h.emitted]
  exact h.transcript.statements_eq hplain

lemma endpoints_eq (h : t.Transcribes d nodes) :
    t.endpoints = t.emitted.filterMap (endpointAt d) := by
  rw [h.endpoints, h.emitted, List.filterMap_map]
  refine List.filterMap_congr fun e he => ?_
  rw [Function.comp_apply, endpointAt, h.transcript.get?_of_mem he, Option.bind_some]

lemma exists_node_iff (h : t.Transcribes d nodes) {P : Entity → Prop} :
    (∃ e ∈ nodes, P e) ↔ ∃ id ∈ t.emitted, ∃ e, d.get? id = some e ∧ P e := by
  constructor
  · rintro ⟨e, he, hP⟩
    have hget := h.transcript.get?_of_mem he
    exact ⟨e.id, (h.mem_iff hget).1 he, e, hget, hP⟩
  · rintro ⟨id, hid, e, hget, hP⟩
    exact ⟨e, (h.mem_iff hget).2 hid, hP⟩

end Draft.Transcribes

/-! ## Reordered documents -/

lemma predecessorVars_of_reordered (h : d.Reordered d') (ids : List NodeId) :
    Draft.predecessorVars d' ids = Draft.predecessorVars d ids := by
  refine List.filterMap_congr fun id _ => h.bind_get?_eq (fun e e' hr => ?_) id
  cases hr <;> rfl

lemma statementAt_of_reordered (h : d.Reordered d') (id : NodeId) :
    statementAt d' id = statementAt d id := by
  refine h.bind_get?_eq (fun e e' hr => ?_) id
  have hargs := argsText_of_reordered h
  have hcall : ∀ l : Layer, inputCall d' l = inputCall d l := fun l => by
    simp only [inputCall, predecessorVars_of_reordered h]
  cases hr with
  | layer l _ => simp only [statementFor?, hargs, hcall]; rfl
  | same => cases e <;> simp only [statementFor?, hargs, hcall]

lemma endpointAt_of_reordered (h : d.Reordered d') (id : NodeId) :
    endpointAt d' id = endpointAt d id := by
  refine h.bind_get?_eq (fun e e' hr => ?_) id
  cases hr <;> rfl

lemma plainEntrances_of_reordered (h : d.Reordered d') (hplain : PlainEntrances d) :
    PlainEntrances d' := by
  intro l' hl'
  obtain ⟨hget, hmark⟩ := Document.mem_entrances_iff.1 hl'
  obtain ⟨l, hl, -, hinput, hentrance⟩ := h.exists_layer (Document.mem_layers_iff.2 hget)
  rw [← hinput]
  exact hplain l (List.mem_filter.2 ⟨hl, hentrance.trans hmark⟩)

/-- A model that is not written is waiting exactly if a written layer is connected to it. -/
lemma Coherent.isPending_iff {ledger : Ledger} {emitted : List NodeId}
    (h : Coherent d [] [] ledger emitted) {n : NodeId} (hn : n ∉ emitted) :
    ledger.isPending n = true ↔ ∃ p ∈ emitted, d.Feeds p n := by
  unfold Ledger.isPending
  cases hget : ledger.get? n with
  -- A node that was not opened: what is connected to it would have been delivered.
  | none =>
    refine iff_of_false (by simp) ?_
    rintro ⟨p, hp, hfeeds⟩
    rcases h.delivered p n hp hfeeds with ⟨l, hlink, -⟩ | ⟨j, hj, -⟩ | ⟨-, hmem⟩
    · simp at hlink
    · simp [hget] at hj
    · exact hn hmem
  | some j =>
    have hreleased : ¬ j.released = true := fun hr =>
      hn (h.released n ((h.tracks n j hget).released_iff.1 hr))
    refine iff_of_true (by simpa using hreleased) ?_
    obtain ⟨p, hp⟩ := h.opened n (by simp [hget])
    exact ⟨p, h.arrived n p hp⟩

/-! ## Two finished walks -/

section

variable {t t' : Draft} {nodes' : List Entity}

/-- The written ids are the same, up to their order. -/
theorem emitted_perm_of_reordered (h : d.Reordered d') (ht : Walk.Reached d ⟨[], [], t⟩)
    (ht' : Walk.Reached d' ⟨[], [], t'⟩) : t.emitted.Perm t'.emitted := by
  have hclosed : {E | FlowClosed d E} = {E | FlowClosed d' E} :=
    Set.ext fun E => ⟨FlowClosed.of_reordered h, FlowClosed.of_reordered h.symm⟩
  have hsame : {id | id ∈ t.emitted} = {id | id ∈ t'.emitted} :=
    ht.isLeast.unique (hclosed ▸ ht'.isLeast)
  exact (List.perm_ext_iff_of_nodup ht.joined.nodup ht'.joined.nodup).2 (Set.ext_iff.1 hsame)

lemma exists_node_of_reordered (h : d.Reordered d') (ht : t.Transcribes d nodes)
    (ht' : t'.Transcribes d' nodes') (hperm : t.emitted.Perm t'.emitted)
    {P P' : Entity → Prop} (hP : ∀ e e', Rewired e e' → P e → P' e') (hex : ∃ e ∈ nodes, P e) :
    ∃ e ∈ nodes', P' e := by
  obtain ⟨id, hid, e, hget, he⟩ := ht.exists_node_iff.1 hex
  obtain ⟨e', hget', hr⟩ := h.get?_rewired hget
  exact ht'.exists_node_iff.2 ⟨id, hperm.mem_iff.1 hid, e', hget', hP e e' hr he⟩

lemma grows_of_reordered (h : d.Reordered d') (ht : t.Transcribes d nodes)
    (ht' : t'.Transcribes d' nodes') (hperm : t.emitted.Perm t'.emitted) :
    t.scope.Grows t'.scope where
  -- What a scope has recorded is what some node needs, and the nodes are the same.
  placeholders name hname := by
    rw [ht.scope.placeholders] at hname
    rw [ht'.scope.placeholders]
    exact exists_node_of_reordered h ht ht' hperm
      (fun _ _ hr => needsPlaceholder_of_reordered h hr) hname
  sources source hsource := by
    rw [ht.scope.sources] at hsource
    rw [ht'.scope.sources]
    exact exists_node_of_reordered h ht ht' hperm
      (fun _ _ hr => needsSource_of_reordered h hr) hsource
  inlined x hx := by
    rw [ht.scope.inlined] at hx
    rw [ht'.scope.inlined]
    exact exists_node_of_reordered h ht ht' hperm
      (fun _ _ hr => inlines_of_reordered h hr) hx

end

/-! ## Warnings -/

/-- All warnings but those about forward references. -/
def orderFreeWarnings (c : Compilation) : List Diagnostic :=
  (c.notices.map Notice.diagnostic).filter fun x => x.code ≠ some .forwardReference

/-- The warning about an entity that is an unused layer. -/
def unusedWarning? (t : Draft) (e : Entity) : Option Diagnostic :=
  e.layer?.bind fun l =>
    if !(t.emitted.contains l.id || t.scope.inlined.contains l.id) then
      some (Notice.unusedLayer l).diagnostic
    else none

/-- The warning about an entity that is a model and not written. -/
def unreleasedWarning? (t : Draft) (e : Entity) : Option Diagnostic :=
  e.model?.bind fun m =>
    if !t.emitted.contains m.id then
      some (Notice.unreleasedModel m (t.ledger.isPending m.id)).diagnostic
    else none

lemma map_filter_filterMap {α β γ : Type} (xs : List α) (f : α → Option β) (p : β → Bool)
    (g : β → γ) :
    ((xs.filterMap f).filter p).map g =
      xs.filterMap fun x => (f x).bind fun y => if p y then some (g y) else none := by
  induction xs with
  | nil => rfl
  | cons x xs ih =>
    cases hx : f x with
    | none => simp [hx, ih]
    | some y => cases hy : p y <;> simp [hx, hy, ih]

/-- The warnings of a finished walk, entity by entity. -/
lemma Draft.Transcribes.orderFreeWarnings_eq {t : Draft} (h : t.Transcribes d nodes) :
    orderFreeWarnings (t.finish d) =
      d.entities.filterMap (unusedWarning? t) ++ d.entities.filterMap (unreleasedWarning? t) := by
  have hunused : (unusedLayers d t).map Notice.diagnostic =
      d.entities.filterMap (unusedWarning? t) := by
    rw [unusedLayers, Document.layers, List.map_map, map_filter_filterMap]
    rfl
  have hmodels : (unreleasedModels d t).map Notice.diagnostic =
      d.entities.filterMap (unreleasedWarning? t) := by
    rw [unreleasedModels, Document.models, List.map_map, map_filter_filterMap]
    rfl
  -- The filter leaves out exactly the notices of the scope.
  have hscope : (t.scope.notices.map Notice.diagnostic).filter
      (fun x => x.code ≠ some .forwardReference) = [] := by
    refine List.filter_eq_nil_iff.2 fun x hx => ?_
    obtain ⟨n, hn, rfl⟩ := List.mem_map.1 hx
    obtain ⟨owner, a, l, rfl⟩ := h.scope.notices n hn
    simp [Notice.code]
  have hothers : ∀ x ∈ (unusedLayers d t ++ unreleasedModels d t).map Notice.diagnostic,
      decide (x.code ≠ some .forwardReference) = true := by
    intro x hx
    obtain ⟨n, hn, rfl⟩ := List.mem_map.1 hx
    rcases List.mem_append.1 hn with hn | hn
    · obtain ⟨l, -, rfl⟩ := List.mem_map.1 hn
      simp [Notice.code]
    · obtain ⟨m, -, rfl⟩ := List.mem_map.1 hn
      simp [Notice.code]
  rw [orderFreeWarnings, Draft.finish, List.append_assoc, List.map_append, List.filter_append,
    hscope, List.nil_append, List.filter_eq_self.2 hothers, List.map_append, hunused, hmodels]

section

variable {t t' : Draft}

lemma unusedWarning?_of_rewired {e e' : Entity} (hr : Rewired e e')
    (hemitted : ∀ id, id ∈ t'.emitted ↔ id ∈ t.emitted)
    (hinlined : ∀ id, id ∈ t'.scope.inlined ↔ id ∈ t.scope.inlined) :
    unusedWarning? t' e' = unusedWarning? t e := by
  have hsame : ∀ id, (t'.emitted.contains id || t'.scope.inlined.contains id) =
      (t.emitted.contains id || t.scope.inlined.contains id) := by
    intro id
    rw [Bool.eq_iff_iff]
    simp only [Bool.or_eq_true, List.contains_iff_mem, hemitted, hinlined]
  cases hr with
  | layer l _ => simp only [unusedWarning?, Entity.layer?, Option.bind_some, hsame]; rfl
  | same => simp only [unusedWarning?, hsame]

lemma isPending_of_reordered (h : d.Reordered d') (ht : Walk.Reached d ⟨[], [], t⟩)
    (ht' : Walk.Reached d' ⟨[], [], t'⟩) {n : NodeId} (hn : n ∉ t.emitted) :
    t'.ledger.isPending n = t.ledger.isPending n := by
  have hperm := emitted_perm_of_reordered h ht ht'
  rw [Bool.eq_iff_iff, ht.coherent.isPending_iff hn,
    ht'.coherent.isPending_iff (mt hperm.mem_iff.2 hn)]
  constructor
  · rintro ⟨p, hp, hfeeds⟩
    exact ⟨p, hperm.mem_iff.2 hp, h.symm.feeds hfeeds⟩
  · rintro ⟨p, hp, hfeeds⟩
    exact ⟨p, hperm.mem_iff.1 hp, h.feeds hfeeds⟩

lemma unreleasedWarning?_of_rewired (h : d.Reordered d') (ht : Walk.Reached d ⟨[], [], t⟩)
    (ht' : Walk.Reached d' ⟨[], [], t'⟩) {e e' : Entity} (hr : Rewired e e') :
    unreleasedWarning? t' e' = unreleasedWarning? t e := by
  cases hr with
  | layer _ _ => rfl
  | same =>
    cases e with
    | model m =>
      have hmem := (emitted_perm_of_reordered h ht ht').mem_iff (a := m.id)
      by_cases hn : m.id ∈ t.emitted
      · simp [unreleasedWarning?, Entity.model?, hn, hmem.1 hn]
      · have hpending := isPending_of_reordered h ht ht' hn
        simp [unreleasedWarning?, Entity.model?, hn, mt hmem.2 hn, hpending]
    | _ => rfl

lemma statements_perm_of_reordered (h : d.Reordered d') (hplain : PlainEntrances d)
    (ht : Walk.Reached d ⟨[], [], t⟩) (ht' : Walk.Reached d' ⟨[], [], t'⟩) :
    t.statements.Perm t'.statements := by
  obtain ⟨nodes, hnodes⟩ := ht.transcribes
  obtain ⟨nodes', hnodes'⟩ := ht'.transcribes
  have hsame : statementAt d' = statementAt d := funext (statementAt_of_reordered h)
  rw [hnodes.statements_eq hplain, hnodes'.statements_eq (plainEntrances_of_reordered h hplain),
    hsame]
  exact (emitted_perm_of_reordered h ht ht').filterMap (statementAt d)

lemma endpoints_perm_of_reordered (h : d.Reordered d') (ht : Walk.Reached d ⟨[], [], t⟩)
    (ht' : Walk.Reached d' ⟨[], [], t'⟩) : t.endpoints.Perm t'.endpoints := by
  obtain ⟨nodes, hnodes⟩ := ht.transcribes
  obtain ⟨nodes', hnodes'⟩ := ht'.transcribes
  have hsame : endpointAt d' = endpointAt d := funext (endpointAt_of_reordered h)
  rw [hnodes.endpoints_eq, hnodes'.endpoints_eq, hsame]
  exact (emitted_perm_of_reordered h ht ht').filterMap (endpointAt d)

lemma warnings_perm_of_reordered (h : d.Reordered d') (ht : Walk.Reached d ⟨[], [], t⟩)
    (ht' : Walk.Reached d' ⟨[], [], t'⟩) :
    (orderFreeWarnings (t.finish d)).Perm (orderFreeWarnings (t'.finish d')) := by
  obtain ⟨nodes, hnodes⟩ := ht.transcribes
  obtain ⟨nodes', hnodes'⟩ := ht'.transcribes
  have hperm := emitted_perm_of_reordered h ht ht'
  have hgrows := grows_of_reordered h hnodes hnodes' hperm
  have hgrows' := grows_of_reordered h.symm hnodes' hnodes hperm.symm
  rw [hnodes.orderFreeWarnings_eq, hnodes'.orderFreeWarnings_eq]
  refine List.Perm.append (h.filterMap_perm fun e e' hr => ?_)
    (h.filterMap_perm fun e e' hr => ?_)
  · exact unusedWarning?_of_rewired hr (fun id => hperm.mem_iff.symm)
      fun id => ⟨(hgrows'.inlined ·), (hgrows.inlined ·)⟩
  · exact unreleasedWarning?_of_rewired h ht ht' hr

end

/-! ## Compilations -/

/-- **Independence of the order.**  Two documents with the same entities, up to the order of the
entities and of the outputs of each layer, whose entrances have no inputs, have compilations that
differ only in their order and in their warnings about forward references. -/
theorem compile_perm_of_reordered (d d' : Document) (h : d.Reordered d')
    (hplain : ∀ l ∈ d.entrances, l.input.ids = []) (c c' : Compilation)
    (hc : compile d = .ok c) (hc' : compile d' = .ok c') :
    c.statements.Perm c'.statements ∧ c.endpoints.Perm c'.endpoints ∧
      (∀ name, name ∈ c.placeholders ↔ name ∈ c'.placeholders) ∧
      (∀ source, source ∈ c.sources ↔ source ∈ c'.sources) ∧
      (orderFreeWarnings c).Perm (orderFreeWarnings c') := by
  obtain ⟨t, ht, rfl⟩ := exists_reached_of_compile hc
  obtain ⟨t', ht', rfl⟩ := exists_reached_of_compile hc'
  obtain ⟨nodes, hnodes⟩ := ht.transcribes
  obtain ⟨nodes', hnodes'⟩ := ht'.transcribes
  have hperm := emitted_perm_of_reordered h ht ht'
  have hgrows := grows_of_reordered h hnodes hnodes' hperm
  have hgrows' := grows_of_reordered h.symm hnodes' hnodes hperm.symm
  exact ⟨statements_perm_of_reordered h hplain ht ht', endpoints_perm_of_reordered h ht ht',
    fun name => ⟨(hgrows.placeholders ·), (hgrows'.placeholders ·)⟩,
    fun source => ⟨(hgrows.sources ·), (hgrows'.sources ·)⟩,
    warnings_perm_of_reordered h ht ht'⟩

/-- The entities of `diamond` from last to first, and the outputs of its entrance too. -/
def mirrored : Document where
  entities :=
    [.model
      { id := .ofText "m", var := "model"
        args := [⟨"inputs", "a", .id⟩, ⟨"outputs", "e", .id⟩] },
    .layer
      { id := .ofText "e", var := "u", className := "Add"
        input := .many [.ofText "c", .ofText "b"], output := [.ofText "m"] },
    .layer
      { id := .ofText "c", var := "z", className := "Dense", args := [⟨"like", "b", .id⟩]
        input := .single (.ofText "a"), output := [.ofText "e"] },
    .layer
      { id := .ofText "b", var := "y", className := "Dense"
        input := .single (.ofText "a"), output := [.ofText "e"] },
    .layer
      { id := .ofText "a", var := "x", className := "Input", entrance := true
        output := [.ofText "m", .ofText "c", .ofText "b"] }]
  nodup := by decide +kernel

/-- The branches of `mirrored` are met in the other order, so that a reference comes too early. -/
def mirroredResult : Compilation where
  statements :=
    [⟨"x", "layers", "Input", "", none⟩,
    ⟨"z", "layers", "Dense", "like=y", some "x"⟩,
    ⟨"y", "layers", "Dense", "", some "x"⟩,
    ⟨"u", "layers", "Add", "", some "[z, y]"⟩,
    ⟨"model", "models", "Model", "inputs=x, outputs=u", none⟩]
  endpoints := ["model"]
  placeholders := []
  sources := ["layers", "models"]
  notices :=
    [.forwardReference
      (.layer
        { id := .ofText "c", var := "z", className := "Dense", args := [⟨"like", "b", .id⟩]
          input := .single (.ofText "a"), output := [.ofText "e"] })
      ⟨"like", "b", .id⟩
      { id := .ofText "b", var := "y", className := "Dense"
        input := .single (.ofText "a"), output := [.ofText "e"] }]

lemma compile_mirrored : compile mirrored = .ok mirroredResult :=
  compile_of_evaluate (k := 9) (n := 7) (by cbv) (by rfl)

lemma diamond_reordered_mirrored : diamond.Reordered mirrored := by
  refine ⟨diamond.entities.reverse, (List.reverse_perm _).symm, ?_⟩
  refine .cons (.same _) (.cons (.same _) (.cons (.same _) (.cons (.same _) (.cons ?_ .nil))))
  exact .layer _ (List.reverse_perm _).symm

/-- The two orders of the diamond have the same statements. -/
theorem compile_perm_diamond :
    diamond.Reordered mirrored ∧ (∀ l ∈ diamond.entrances, l.input.ids = []) ∧
      compile diamond = .ok diamondResult ∧ compile mirrored = .ok mirroredResult ∧
      diamondResult.statements.Perm mirroredResult.statements ∧
      (orderFreeWarnings diamondResult).Perm (orderFreeWarnings mirroredResult) := by
  have hplain : ∀ l ∈ diamond.entrances, l.input.ids = [] := by
    have hall : (diamond.entrances.all fun l => l.input.ids.isEmpty) = true := rfl
    intro l hl
    simpa using List.all_eq_true.1 hall l hl
  obtain ⟨hstatements, -, -, -, hwarnings⟩ :=
    compile_perm_of_reordered diamond mirrored diamond_reordered_mirrored hplain diamondResult
      mirroredResult compile_diamond compile_mirrored
  exact ⟨diamond_reordered_mirrored, hplain, compile_diamond, compile_mirrored, hstatements,
    hwarnings⟩

end NetDiagram.Flow
