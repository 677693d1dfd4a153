import NetDiagram.Proofs.Delivery
import NetDiagram.Proofs.Evaluation
import NetDiagram.Proofs.Footprint

/-!
# The statements of a compilation

A compilation has one statement for each of a list of nodes, without repetition.  A layer that is
not an entrance comes after all the layers it waits for, and is called with their variables in the
order in which it declares them, whatever the order in which they arrived; a model comes after all
that it lists.

`Transcript` is the order in which this is true step by step: a node is added at the end, and its
statement is justified by the nodes before it (`Justified`).  Every walk keeps such a transcript
(`Walk.Reached.transcribes`), and `Emission` is what a reader of the result can take from it.
-/

namespace NetDiagram.Flow

/-! ## Justified statements -/

/-- What a layer is called with, given the nodes that have statements before it.  An entrance at
which the walk starts is not called. -/
inductive Called (before : List Entity) (l : Layer) : Option String → Prop
  | entrance (mark : l.entrance = true) : Called before l none
  | single {p : Layer} (input : l.input = .single p.id) (mem : .layer p ∈ before)
      (feeds : l.id ∈ p.output) : Called before l (some p.var)
  | many {ps : List Layer} (input : l.input = .many (ps.map (·.id))) (declared : ps ≠ [])
      (mem : ∀ p ∈ ps, .layer p ∈ before ∧ l.id ∈ p.output) :
      Called before l (some (bracket (ps.map (·.var))))

/-- The statement of a node, given the nodes that have statements before it. -/
inductive Justified (d : Document) (before : List Entity) : Entity → Statement → Prop
  | layer {l : Layer} {call : Option String} (called : Called before l call) :
      Justified d before (.layer l)
        ⟨l.var, layerSource, l.className, argsText d l.args, call⟩
  | model {m : Model} (declared : m.members ≠ [])
      (mem : ∀ id ∈ m.members, ∃ p, .layer p ∈ before ∧ p.id = id ∧ m.id ∈ p.output) :
      Justified d before (.model m)
        ⟨m.var, modelSource, m.className, argsText d m.args, none⟩

/-- The statements are those of the nodes, each justified by the nodes before it. -/
inductive Transcript (d : Document) : List Entity → List Statement → Prop
  | nil : Transcript d [] []
  | snoc {nodes : List Entity} {statements : List Statement} {e : Entity} {s : Statement}
      (before : Transcript d nodes statements) (get : d.get? e.id = some e)
      (justified : Justified d nodes e s) : Transcript d (nodes ++ [e]) (statements ++ [s])

namespace Transcript

variable {d : Document} {nodes : List Entity} {statements : List Statement}

lemma get?_of_mem (h : Transcript d nodes statements) {e : Entity} (he : e ∈ nodes) :
    d.get? e.id = some e := by
  induction h with
  | nil => simp at he
  | snoc _ hget _ ih =>
    rcases List.mem_append.1 he with hold | hlast
    · exact ih hold
    · rwa [List.mem_singleton.1 hlast]

lemma length_eq (h : Transcript d nodes statements) : nodes.length = statements.length := by
  induction h with
  | nil => rfl
  | snoc _ _ _ ih => simp [ih]

lemma justified_at (h : Transcript d nodes statements) {i : Nat} {e : Entity} {s : Statement}
    (he : nodes[i]? = some e) (hs : statements[i]? = some s) :
    Justified d (nodes.take i) e s := by
  induction h with
  | nil => simp at he
  | @snoc nodes statements e' s' hbefore _ hjust ih =>
    have hlen := hbefore.length_eq
    by_cases hi : i < nodes.length
    · rw [List.getElem?_append_left hi] at he
      rw [List.getElem?_append_left (hlen ▸ hi)] at hs
      rw [List.take_append_of_le_length hi.le]
      exact ih he hs
    · have hlast : i = nodes.length := by
        have := (List.getElem?_eq_some_iff.1 he).1
        simp only [List.length_append, List.length_singleton] at this
        omega
      subst hlast
      rw [hlen] at hs
      rw [List.getElem?_concat_length, Option.some.injEq] at he hs
      rw [← he, ← hs, List.take_left]
      exact hjust

lemma exists_justified (h : Transcript d nodes statements) {e : Entity} (he : e ∈ nodes) :
    ∃ before s, before ⊆ nodes ∧ Justified d before e s := by
  obtain ⟨i, hi⟩ := List.mem_iff_getElem?.1 he
  obtain ⟨hlt, -⟩ := List.getElem?_eq_some_iff.1 hi
  have hs := List.getElem?_eq_getElem (h.length_eq ▸ hlt)
  exact ⟨_, _, List.take_subset i nodes, h.justified_at hi hs⟩

end Transcript

/-! ## Drafts -/

/-- The variable of a model. -/
def modelVar? (e : Entity) : Option String :=
  e.model?.map (·.var)

/-- The draft has the statements of the given nodes, and nothing else. -/
structure Draft.Transcribes (d : Document) (nodes : List Entity) (t : Draft) : Prop where
  transcript : Transcript d nodes t.statements
  emitted : t.emitted = nodes.map Entity.id
  endpoints : t.endpoints = nodes.filterMap modelVar?
  scope : t.scope.Accounts d nodes

namespace Draft.Transcribes

variable {d : Document} {nodes : List Entity} {t t' : Draft}

lemma start (d : Document) : Transcribes d [] {} :=
  ⟨.nil, rfl, rfl, Scope.accounts_empty d⟩

lemma mem_iff (h : t.Transcribes d nodes) {id : NodeId} {e : Entity} (hget : d.get? id = some e) :
    e ∈ nodes ↔ id ∈ t.emitted := by
  rw [h.emitted, List.mem_map]
  constructor
  · intro he
    exact ⟨e, he, Document.id_of_get? hget⟩
  · rintro ⟨e', he', rfl⟩
    obtain rfl : e' = e := Option.some.inj ((h.transcript.get?_of_mem he').symm.trans hget)
    exact he'

/-- The ledger is not part of what is written. -/
lemma ledger (h : t.Transcribes d nodes) (ledger : Ledger) :
    Transcribes d nodes { t with ledger := ledger } :=
  ⟨h.transcript, h.emitted, h.endpoints, h.scope⟩

lemma writeLayer {l : Layer} {call : Option String} (h : t.Transcribes d nodes)
    (hget : d.get? l.id = some (.layer l)) (hmode : l.mode ≠ .ca) (hcall : Called nodes l call)
    (hwrite : Draft.writeLayer d t l call = .ok t') : t'.Transcribes d (nodes ++ [.layer l]) := by
  obtain ⟨texts, s, hr, rfl⟩ := renders_of_writeLayer hwrite
  obtain ⟨hscope, rfl⟩ := h.scope.render (e := .layer l) rfl hr
  exact
    { transcript := h.transcript.snoc hget (.layer hcall)
      emitted := by simp [h.emitted, Entity.id, Entity.node]
      endpoints := by simp [h.endpoints, modelVar?, Entity.model?]
      scope := hscope.bind_layer hget hmode }

lemma writeModel {m : Model} (h : t.Transcribes d nodes) (hget : d.get? m.id = some (.model m))
    (hne : m.members ≠ [])
    (hmem : ∀ id ∈ m.members, ∃ p, .layer p ∈ nodes ∧ p.id = id ∧ m.id ∈ p.output)
    (hwrite : Draft.writeModel d t m = .ok t') : t'.Transcribes d (nodes ++ [.model m]) := by
  obtain ⟨texts, s, hr, rfl⟩ := renders_of_writeModel hwrite
  obtain ⟨hscope, rfl⟩ := h.scope.render (e := .model m) rfl hr
  exact
    { transcript := h.transcript.snoc hget (.model hne hmem)
      emitted := by simp [h.emitted, Entity.id, Entity.node]
      endpoints := by simp [h.endpoints, modelVar?, Entity.model?]
      scope := hscope }

end Draft.Transcribes

/-! ## Walks -/

lemma predecessorVars_map_id {d : Document} {ps : List Layer}
    (h : ∀ p ∈ ps, d.get? p.id = some (.layer p)) :
    Draft.predecessorVars d (ps.map (·.id)) = ps.map (·.var) := by
  induction ps with
  | nil => rfl
  | cons p ps ih =>
    rw [List.forall_mem_cons] at h
    rw [List.map_cons, List.map_cons, ← ih h.2]
    simp [Draft.predecessorVars, h.1, Entity.layer?]

lemma exists_predecessors {d : Document} {P : Layer → Prop} {ids : List NodeId}
    (h : ∀ id ∈ ids, ∃ p, d.get? id = some (.layer p) ∧ P p) :
    ∃ ps : List Layer, ps.map (·.id) = ids ∧
      ∀ p ∈ ps, d.get? p.id = some (.layer p) ∧ P p := by
  induction ids with
  | nil => exact ⟨[], rfl, by simp⟩
  | cons id ids ih =>
    rw [List.forall_mem_cons] at h
    obtain ⟨p, hget, hp⟩ := h.1
    obtain ⟨ps, hids, hps⟩ := ih h.2
    obtain rfl : p.id = id := Document.id_of_get? hget
    exact ⟨p :: ps, by rw [List.map_cons, hids], List.forall_mem_cons.2 ⟨⟨hget, hp⟩, hps⟩⟩

namespace Walk

variable {d : Document} {w w' : Walk}

/-- When a join is complete, all that it declares has a statement and is connected to it. -/
lemma Coherent.predecessors {entrances : List Layer} {rest : List (Layer × NodeId)} {t : Draft}
    {p : Layer} {n : NodeId} {e : Entity} {ledger : Ledger} {nodes : List Entity}
    (hc : Walk.Coherent d ⟨entrances, (p, n) :: rest, t⟩) (h : t.Transcribes d nodes)
    (hget : d.get? n = some e)
    (harrive : (t.ledger.register n e.roles).arrive n p.id = (.satisfied, ledger)) :
    e.roles.flatten ≠ [] ∧
      ∀ id ∈ e.roles.flatten,
        ∃ q, d.get? id = some (.layer q) ∧ .layer q ∈ nodes ∧ n ∈ q.output := by
  have hr := hc.receives hget harrive (by simp)
  obtain ⟨hne, hall⟩ := (hr.satisfied_iff.1 rfl).2
  rw [Document.roles_of_get? hget] at hne hall
  refine ⟨hne, fun id hid => ?_⟩
  obtain ⟨hmem, q, hq, hn⟩ := Flow.Coherent.arrived_receive hc hr (hall id hid)
  obtain rfl : q.id = id := Document.id_of_get? hq
  exact ⟨q, hq, (h.mem_iff hq).2 hmem, hn⟩

lemma Step.transcribes {nodes : List Entity} (hs : Step d w w') (hc : w.Coherent d)
    (h : w.draft.Transcribes d nodes) : ∃ nodes', w'.draft.Transcribes d nodes' := by
  cases hs with
  | skip _ => exact ⟨nodes, h⟩
  | again _ _ _ => exact ⟨nodes, h⟩
  | pending _ _ => exact ⟨nodes, h.ledger _⟩
  | @enter l entrances t t' hmode _ hwrite =>
    obtain ⟨hget, hmark⟩ := Document.mem_entrances_iff.1 (hc.entrance_mem l List.mem_cons_self)
    exact ⟨_, h.writeLayer hget hmode (.entrance hmark) hwrite⟩
  | @single p l _ _ t t' hget hmode _ hinput hwrite =>
    obtain ⟨hp, hmem, hn⟩ := hc.source_mem p l.id List.mem_cons_self
    exact ⟨_, h.writeLayer hget hmode (.single hinput ((h.mem_iff hp).2 hmem) hn) hwrite⟩
  | @joinLayer p l ids _ _ t t' ledger hget hmode _ hinput harrive hwrite =>
    -- The ledger says that the join is complete, so all that it declares is among the nodes.
    obtain ⟨hne, hall⟩ := hc.predecessors h hget harrive
    rw [Entity.flatten_roles_layer, hinput, Inputs.ids] at hne hall
    obtain ⟨ps, rfl, hps⟩ := exists_predecessors hall
    rw [predecessorVars_map_id fun p hp => (hps p hp).1] at hwrite
    have hcalled : Called nodes l (some (bracket (ps.map (·.var)))) :=
      .many hinput (by simpa using hne) fun p hp => (hps p hp).2
    exact ⟨_, (h.ledger ledger).writeLayer hget hmode hcalled hwrite⟩
  | @joinModel p m _ _ t t' ledger hget harrive hwrite =>
    obtain ⟨hne, hall⟩ := hc.predecessors h hget harrive
    rw [Entity.flatten_roles_model] at hne hall
    refine ⟨_, (h.ledger ledger).writeModel hget hne (fun id hid => ?_) hwrite⟩
    obtain ⟨q, hq, hmem, hn⟩ := hall id hid
    exact ⟨q, hmem, Document.id_of_get? hq, hn⟩

/-- **Transcripts.**  The draft of every walk of a compilation has a transcript. -/
theorem Reached.transcribes (h : Reached d w) : ∃ nodes, w.draft.Transcribes d nodes :=
  h.induction (P := fun w => ∃ nodes, w.draft.Transcribes d nodes)
    ⟨[], Draft.Transcribes.start d⟩
    fun _ _ hreached hs ⟨_, hw⟩ => hs.transcribes hreached.coherent hw

end Walk

/-! ## Compilations -/

/-- The statement of a layer, given the nodes that have statements before it. -/
structure LayerStatement (d : Document) (before : List Entity) (l : Layer) (s : Statement) :
    Prop where
  var : s.var = l.var
  source : s.source = "layers"
  className : s.className = l.className
  args : s.args = argsText d l.args
  /-- Only an entrance can do without inputs. -/
  inputs : l.entrance = false → l.input.ids ≠ []
  /-- A layer with one input is called with the variable of its predecessor. -/
  single : l.entrance = false → ∀ id, l.input = .single id →
    ∃ p, .layer p ∈ before ∧ p.id = id ∧ l.id ∈ p.output ∧ s.call = some p.var
  /-- A layer with a list of inputs is called with their variables in the declared order, in
  brackets unless there is only one. -/
  many : l.entrance = false → ∀ ids, l.input = .many ids →
    ∃ ps : List Layer, ps.map (·.id) = ids ∧ (∀ p ∈ ps, .layer p ∈ before ∧ l.id ∈ p.output) ∧
      (∀ p, ps = [p] → s.call = some p.var) ∧
      (ps.length ≠ 1 → s.call = some ("[" ++ ", ".intercalate (ps.map (·.var)) ++ "]"))

/-- The statement of a model, given the nodes that have statements before it. -/
structure ModelStatement (d : Document) (before : List Entity) (m : Model) (s : Statement) :
    Prop where
  var : s.var = m.var
  source : s.source = "models"
  className : s.className = m.className
  args : s.args = argsText d m.args
  call : s.call = none
  /-- All that the model lists is a layer that has a statement and is connected to the model. -/
  members : ∀ id ∈ m.members, ∃ p, .layer p ∈ before ∧ p.id = id ∧ m.id ∈ p.output

/-- The compilation has one statement for each of the nodes, in this order. -/
structure Emission (d : Document) (nodes : List Entity) (c : Compilation) : Prop where
  mem_entities : ∀ e ∈ nodes, e ∈ d.entities
  nodup : (nodes.map Entity.id).Nodup
  length_eq : nodes.length = c.statements.length
  statement : ∀ i e s, nodes[i]? = some e → c.statements[i]? = some s →
    (∃ l, e = .layer l ∧ LayerStatement d (nodes.take i) l s) ∨
      ∃ m, e = .model m ∧ ModelStatement d (nodes.take i) m s
  endpoints : c.endpoints = nodes.filterMap modelVar?

lemma bracket_of_length_ne_one {xs : List String} (h : xs.length ≠ 1) :
    bracket xs = "[" ++ ", ".intercalate xs ++ "]" := by
  match xs with
  | [] => rfl
  | [_] => simp at h
  | _ :: _ :: _ => rfl

lemma Called.layerStatement {d : Document} {before : List Entity} {l : Layer}
    {call : Option String} (h : Called before l call) :
    LayerStatement d before l ⟨l.var, layerSource, l.className, argsText d l.args, call⟩ where
  var := rfl
  source := rfl
  className := rfl
  args := rfl
  inputs hentrance := by
    cases h with
    | entrance hmark => simp [hentrance] at hmark
    | single hinput => simp [hinput, Inputs.ids]
    | many hinput hdeclared => simpa [hinput, Inputs.ids] using hdeclared
  single hentrance id hinput := by
    cases h with
    | entrance hmark => simp [hentrance] at hmark
    | single hinput' hmem hfeeds =>
      rw [hinput', Inputs.single.injEq] at hinput
      exact ⟨_, hmem, hinput, hfeeds, rfl⟩
    | many hinput' => simp [hinput'] at hinput
  many hentrance ids hinput := by
    cases h with
    | entrance hmark => simp [hentrance] at hmark
    | single hinput' => simp [hinput'] at hinput
    | many hinput' _ hmem =>
      rw [hinput', Inputs.many.injEq] at hinput
      refine ⟨_, hinput, hmem, ?_, fun hlen => ?_⟩
      · rintro p rfl
        rfl
      · rw [bracket_of_length_ne_one (by simpa using hlen)]

lemma Justified.statement {d : Document} {before : List Entity} {e : Entity} {s : Statement}
    (h : Justified d before e s) :
    (∃ l, e = .layer l ∧ LayerStatement d before l s) ∨
      ∃ m, e = .model m ∧ ModelStatement d before m s := by
  cases h with
  | @layer l _ hcalled => exact Or.inl ⟨l, rfl, hcalled.layerStatement⟩
  | @model m _ hmem => exact Or.inr ⟨m, rfl, rfl, rfl, rfl, rfl, rfl, hmem⟩

lemma Draft.Transcribes.emission {d : Document} {nodes : List Entity} {t : Draft}
    (h : t.Transcribes d nodes) (hnodup : t.emitted.Nodup) : Emission d nodes (t.finish d) where
  mem_entities _ he := Document.mem_of_get? (h.transcript.get?_of_mem he)
  nodup := h.emitted ▸ hnodup
  length_eq := h.transcript.length_eq
  statement _ _ _ he hs := (h.transcript.justified_at he hs).statement
  endpoints := h.endpoints

lemma Draft.Transcribes.entrance_mem {d : Document} {nodes : List Entity} {t : Draft}
    (h : t.Transcribes d nodes) (hreached : Walk.Reached d ⟨[], [], t⟩) {l : Layer}
    (hl : l ∈ d.entrances) : .layer l ∈ nodes := by
  have hget := (Document.mem_entrances_iff.1 hl).1
  exact (h.mem_iff hget).2 ((hreached.coherent.entered l hl).resolve_left (by simp))

/-- **Soundness of the emission.**  A compilation has one statement for each of a list of distinct
nodes, each of which stands after all that it waits for. -/
theorem exists_emission_of_compile (d : Document) (c : Compilation) (h : compile d = .ok c) :
    ∃ nodes, Emission d nodes c := by
  obtain ⟨t, hreached, rfl⟩ := exists_reached_of_compile h
  obtain ⟨nodes, hnodes⟩ := hreached.transcribes
  exact ⟨nodes, hnodes.emission hreached.joined.nodup⟩

/-- Two branches that are joined again: `e` declares `c` before `b`, but `b` arrives first. -/
def diamond : Document where
  entities :=
    [.layer
      { id := .ofText "a", var := "x", className := "Input", entrance := true
        output := [.ofText "b", .ofText "c", .ofText "m"] },
    .layer
      { id := .ofText "b", var := "y", className := "Dense"
        input := .single (.ofText "a"), output := [.ofText "e"] },
    .layer
      { id := .ofText "c", var := "z", className := "Dense", args := [⟨"like", "b", .id⟩]
        input := .single (.ofText "a"), output := [.ofText "e"] },
    .layer
      { id := .ofText "e", var := "u", className := "Add"
        input := .many [.ofText "c", .ofText "b"], output := [.ofText "m"] },
    .model
      { id := .ofText "m", var := "model"
        args := [⟨"inputs", "a", .id⟩, ⟨"outputs", "e", .id⟩] }]
  nodup := by decide +kernel

/-- The compilation of `diamond`. -/
def diamondResult : Compilation where
  statements :=
    [⟨"x", "layers", "Input", "", none⟩,
    ⟨"y", "layers", "Dense", "", some "x"⟩,
    ⟨"z", "layers", "Dense", "like=y", some "x"⟩,
    ⟨"u", "layers", "Add", "", some "[z, y]"⟩,
    ⟨"model", "models", "Model", "inputs=x, outputs=u", none⟩]
  endpoints := ["model"]
  placeholders := []
  sources := ["layers", "models"]
  notices := []

lemma compile_diamond : compile diamond = .ok diamondResult :=
  compile_of_evaluate (k := 9) (n := 7) (by cbv) (by rfl)

/-- The calls of the joined layer and of the model are those of the theorem. -/
theorem exists_emission_diamond :
    compile diamond = .ok diamondResult ∧ ∃ nodes, Emission diamond nodes diamondResult :=
  ⟨compile_diamond, exists_emission_of_compile diamond diamondResult compile_diamond⟩

end NetDiagram.Flow
