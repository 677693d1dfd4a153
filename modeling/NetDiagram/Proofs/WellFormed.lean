import NetDiagram.Proofs.Cycles
import NetDiagram.Proofs.Delivery
import NetDiagram.Proofs.Evaluation
import NetDiagram.Proofs.Soundness

/-!
# Well-formed documents are compiled

A compilation can fail in many places: when the document is checked, when a connection is followed,
when an arrival is recorded, and anywhere inside the arguments of a statement.  This file says what
a document must have so that it fails in none of them, whatever the order in which its connections
are followed.

## Main statements

* `Document.WellFormed.sound`: in a well-formed document the arguments of every entity are sound.
* `Walk.Reached.exists_next`: every walk of a well-formed document can take its next step.
* `exists_compile_of_wellFormed`: a well-formed document is compiled.
-/

namespace NetDiagram

/-- Nothing in the document stops a compilation. -/
structure Document.WellFormed (d : Document) : Prop where
  entrance : ∃ l ∈ d.layers, l.entrance = true
  model : ∃ m, m ∈ d.models
  /-- The outputs have no cycle. -/
  acyclic : ∀ id, ¬ d.OnCycle id
  /-- An inline layer takes no part in the flow. -/
  inline : ∀ l ∈ d.layers, l.mode = .ca → l.entrance = false ∧ ∀ p, ¬ d.Feeds p l.id
  /-- Every connection is declared at its target. -/
  declared : ∀ p n, d.Feeds p n → d.Declares n p
  /-- Every model says what its inputs and its outputs are. -/
  roles : ∀ m ∈ d.models, (m.arg? Model.inputsName).isSome ∧ (m.arg? Model.outputsName).isSome
  set : ∀ e ∈ d.entities, ∀ a ∈ e.args, a.isUnset = false
  referable : ∀ e ∈ d.entities, ∀ ref ∈ references e.args, d.Referable ref
  /-- The references among units and inline layers have no cycle. -/
  grounded : ∀ id, ¬ Relation.TransGen (Flow.Refers d) id id

namespace Document.WellFormed

variable {d : Document}

lemma referable_of_involves (h : d.WellFormed) {e : Entity} (he : e ∈ d.entities) {x : NodeId}
    (hx : Flow.Involves d (references e.args) x) : d.Referable x := by
  obtain ⟨ref, href, hreaches⟩ := hx
  rcases Relation.ReflTransGen.cases_tail hreaches with rfl | ⟨y, -, e', hget, -, hmem⟩
  · exact h.referable e he x href
  · exact h.referable e' (mem_of_get? hget) x hmem

/-- The arguments of every entity are sound. -/
theorem sound (h : d.WellFormed) {e : Entity} (he : e ∈ d.entities) :
    (Flow.Piece.args e.args).Sound d where
  set := h.set e he
  calls_set _ e' _ hget _ := h.set e' (mem_of_get? hget)
  referable _ hx := h.referable_of_involves he hx
  acyclic x _ := h.grounded x

/-- A well-formed document passes the check. -/
theorem validate_eq_ok (h : d.WellFormed) : Flow.validate d = .ok () := by
  obtain ⟨l, hl, hmark⟩ := h.entrance
  obtain ⟨m, hm⟩ := h.model
  have hentrance : d.entrances.isEmpty = false :=
    List.isEmpty_eq_false_iff.2 (List.ne_nil_of_mem (List.mem_filter.2 ⟨hl, hmark⟩))
  have hmodel : d.models.isEmpty = false :=
    List.isEmpty_eq_false_iff.2 (List.ne_nil_of_mem hm)
  have hcheck : Flow.checkAcyclic d = .ok () := Flow.checkAcyclic_eq_ok_iff.2 h.acyclic
  simp only [Flow.validate, hentrance, hmodel, hcheck, Bool.false_eq_true, if_false]

lemma exists_roleIds (h : d.WellFormed) {m : Model} (hm : m ∈ d.models) {name : String}
    (hname : (m.arg? name).isSome) : ∃ ids, Flow.Draft.roleIds m name = .ok ids := by
  obtain ⟨a, ha⟩ := Option.isSome_iff_exists.1 hname
  have hset : a.isUnset = false :=
    h.set (.model m) (mem_of_get? (mem_models_iff.1 hm)) a (List.mem_of_find?_eq_some ha)
  exact ⟨a.idList, by simp [Flow.Draft.roleIds, ha, hset]⟩

end Document.WellFormed

namespace Flow

variable {d : Document} {t : Draft}

/-! ## Single steps -/

lemma Draft.exists_writeLayer {l : Layer} (h : (Piece.args l.args).Sound d) (t : Draft)
    (call : Option String) : ∃ t', Draft.writeLayer d t l call = .ok t' := by
  obtain ⟨texts, s, hr⟩ := h.exists_renders (.layer l) (t.scope.touch layerSource)
  have hrun : (renderArgs d [] (.layer l) l.args).run (t.scope.touch layerSource) =
    .ok (texts, s) := hr.run
  rw [Draft.writeLayer, hrun]
  exact ⟨_, rfl⟩

lemma Draft.exists_writeModel {m : Model} (h : (Piece.args m.args).Sound d) (t : Draft) :
    ∃ t', Draft.writeModel d t m = .ok t' := by
  obtain ⟨texts, s, hr⟩ := h.exists_renders (.model m) (t.scope.touch modelSource)
  have hrun : (renderArgs d [] (.model m) m.args).run (t.scope.touch modelSource) =
    .ok (texts, s) := hr.run
  rw [Draft.writeModel, hrun]
  exact ⟨_, rfl⟩

/-- A layer can be reached by what it declares, at any time. -/
lemma Draft.exists_reachLayer {p l : Layer} (htracks : ∀ n, t.ledger.TracksAt n (d.roles n))
    (hget : d.get? l.id = some (.layer l)) (hmem : p.id ∈ l.input.ids) :
    ∃ ledger call, Draft.reachLayer d t p l = .ok (ledger, call) := by
  unfold Draft.reachLayer
  split
  · exact ⟨_, _, rfl⟩
  · cases hinput : l.input with
    | none => simp [hinput, Inputs.ids] at hmem
    | single id =>
      have hid : id = p.id := by simpa [hinput, Inputs.ids, eq_comm] using hmem
      exact ⟨_, _, if_pos hid⟩
    | many ids =>
      have htracks : t.ledger.TracksAt l.id [ids] := by
        have h := htracks l.id
        rwa [Document.roles_of_get? hget, Entity.roles, hinput, Inputs.ids] at h
      have hdeclared : p.id ∈ [ids].flatten := by simpa [hinput, Inputs.ids] using hmem
      dsimp only
      split
      · exact ⟨_, _, rfl⟩
      · exact ⟨_, _, rfl⟩
      -- The source is declared, so the ledger does not refuse it.
      · rename_i harrive
        exact absurd hdeclared ((Ledger.arrive_eq_undeclared_iff htracks p.id).1 (by rw [harrive]))

lemma Draft.exists_reachModel {p : Layer} {m : Model} {inputs outputs : List NodeId}
    (htracks : ∀ n, t.ledger.TracksAt n (d.roles n)) (hget : d.get? m.id = some (.model m))
    (hinputs : Draft.roleIds m Model.inputsName = .ok inputs)
    (houtputs : Draft.roleIds m Model.outputsName = .ok outputs) (hmem : p.id ∈ m.members)
    (hsound : (Piece.args m.args).Sound d) : ∃ t', Draft.reachModel d t p m = .ok t' := by
  have hroles : (Entity.model m).roles = [inputs, outputs] := by
    simp [Entity.roles, Walk.listed_of_roleIds hinputs, Walk.listed_of_roleIds houtputs]
  have htracks : t.ledger.TracksAt m.id [inputs, outputs] := by
    rw [← hroles, ← Document.roles_of_get? hget]
    exact htracks m.id
  have hdeclared : p.id ∈ [inputs, outputs].flatten := by
    rwa [← hroles, Entity.flatten_roles_model]
  simp only [Draft.reachModel, hinputs, houtputs]
  split
  · exact Draft.exists_writeModel hsound _
  · exact ⟨_, rfl⟩
  · rename_i harrive
    exact absurd hdeclared ((Ledger.arrive_eq_undeclared_iff htracks p.id).1 (by rw [harrive]))

namespace Walk

variable {w : Walk}

lemma exists_visit (wf : d.WellFormed) (htracks : ∀ n, t.ledger.TracksAt n (d.roles n)) {p : Layer}
    {n : NodeId} (hfeeds : d.Feeds p.id n) : ∃ new t', visit d t p n = .ok (new, t') := by
  rcases wf.declared p.id n hfeeds with ⟨l, hget, hmem⟩ | ⟨m, hget, hmem⟩
  · obtain rfl : l.id = n := Document.id_of_get? hget
    have hmode : l.mode ≠ .ca :=
      fun hca => (wf.inline l (Document.mem_layers_iff.2 hget) hca).2 p.id hfeeds
    obtain ⟨ledger, call, hreach⟩ := Draft.exists_reachLayer htracks hget hmem
    cases call with
    | none => exact ⟨[], { t with ledger := ledger }, by simp [visit, hget, hmode, hreach]⟩
    | some text =>
      obtain ⟨t', hwrite⟩ := Draft.exists_writeLayer (wf.sound (Document.mem_of_get? hget))
        { t with ledger := ledger } (some text)
      exact ⟨connections l, t', by simp [visit, hget, hmode, hreach, hwrite]⟩
  · obtain rfl : m.id = n := Document.id_of_get? hget
    have hm : m ∈ d.models := Document.mem_models_iff.2 hget
    obtain ⟨inputs, hinputs⟩ := wf.exists_roleIds hm (wf.roles m hm).1
    obtain ⟨outputs, houtputs⟩ := wf.exists_roleIds hm (wf.roles m hm).2
    obtain ⟨t', hreach⟩ := Draft.exists_reachModel htracks hget hinputs houtputs hmem
      (wf.sound (Document.mem_of_get? hget))
    exact ⟨[], t', by simp [visit, hget, hreach]⟩

/-- **Progress.**  Every walk of a well-formed document can take its next step. -/
theorem Reached.exists_next (h : Reached d w) (wf : d.WellFormed) : ∃ w', w.next d = .ok w' := by
  have hc := h.coherent
  obtain ⟨entrances, links, t⟩ := w
  cases links with
  | cons link rest =>
    obtain ⟨p, n⟩ := link
    obtain ⟨hp, -, hn⟩ := hc.source_mem p n List.mem_cons_self
    obtain ⟨new, t', hvisit⟩ := exists_visit wf hc.tracks ⟨p, hp, hn⟩
    exact ⟨⟨entrances, new ++ rest, t'⟩, by simp [Walk.next, hvisit]⟩
  | nil =>
    cases entrances with
    | nil => exact ⟨_, rfl⟩
    | cons l entrances =>
      obtain ⟨hget, hmark⟩ := Document.mem_entrances_iff.1 (hc.entrance_mem l List.mem_cons_self)
      have hmode : l.mode ≠ .ca := by
        intro hca
        have hnot := (wf.inline l (Document.mem_layers_iff.2 hget) hca).1
        simp [hmark] at hnot
      obtain ⟨t', hwrite⟩ :=
        Draft.exists_writeLayer (wf.sound (Document.mem_of_get? hget)) t none
      by_cases hold : l.id ∈ t.emitted
      · exact ⟨⟨entrances, [], t⟩, by simp [Walk.next, hmode, hold]⟩
      · exact ⟨⟨entrances, connections l, t'⟩, by simp [Walk.next, hmode, hold, hwrite]⟩

end Walk

/-! ## Compilations -/

/-- **Well-formed documents are compiled.** -/
theorem exists_compile_of_wellFormed (d : Document) (h : d.WellFormed) :
    ∃ c, compile d = .ok c := by
  cases hcompile : compile d with
  | ok c => exact ⟨c, rfl⟩
  | error fault =>
    -- A fault is the fault of a step, but every step succeeds.
    obtain ⟨w, hreached, hfault⟩ := exists_next_error_of_compile h.validate_eq_ok hcompile
    obtain ⟨w', hnext⟩ := hreached.exists_next h
    exact absurd (hfault.symm.trans hnext) (by simp)

/-- A document with all kinds of entities: an inline layer with a unit inside stands in two
statements, the first of which also refers to a layer that is built later, and two branches are
joined. -/
def workshop : Document where
  entities :=
    [.placeholder { id := .ofText "p", name := "seed" },
    .unit
      { id := .ofText "u", className := "HeNormal", source := "initializers"
        args := [⟨"seed", "p", .id⟩] },
    .layer
      { id := .ofText "k", var := "k", className := "Dense", mode := .ca
        args := [⟨"units", "64", .num⟩, ⟨"init", "u", .id⟩] },
    .layer
      { id := .ofText "a", var := "x", className := "Input", entrance := true
        args := [⟨"name", "in", .str⟩], output := [.ofText "b", .ofText "c", .ofText "m"] },
    .layer
      { id := .ofText "b", var := "y", className := "Wrapper", mode := .ac
        args := [⟨"layer", "k", .id⟩, ⟨"twin", "e", .id⟩]
        input := .single (.ofText "a"), output := [.ofText "e"] },
    .layer
      { id := .ofText "c", var := "z", className := "Merge", args := [⟨"like", "b; k", .id⟩]
        input := .many [.ofText "a"], output := [.ofText "e"] },
    .layer
      { id := .ofText "e", var := "v", className := "Add"
        input := .many [.ofText "c", .ofText "b"], output := [.ofText "m"] },
    .model
      { id := .ofText "m", var := "model"
        args := [⟨"inputs", "a", .id⟩, ⟨"outputs", "e", .id⟩] },
    .note { id := .ofText "n", text := "both branches use the same layer" }]
  nodup := by decide +kernel

/-- How deep the references of a unit or an inline layer of `workshop` go. -/
def workshopDepth (id : NodeId) : Nat :=
  if id = .ofText "k" then 2 else if id = .ofText "u" then 1 else 0

lemma workshopDepth_lt_of_reaches {id ref : NodeId}
    (h : Relation.TransGen (Refers workshop) id ref) : workshopDepth ref < workshopDepth id := by
  have hentities : ∀ e ∈ workshop.entities, (inlineCall? e).isSome → ∀ ref ∈ references e.args,
      workshopDepth ref < workshopDepth e.id := by
    decide +kernel
  have hrefers : ∀ {x y}, Refers workshop x y → workshopDepth y < workshopDepth x := by
    rintro x y ⟨e, hget, hcall, hy⟩
    obtain ⟨hmem, rfl⟩ := Document.get?_eq_some_iff.1 hget
    exact hentities e hmem hcall y hy
  induction h with
  | single h => exact hrefers h
  | tail _ h ih => exact (hrefers h).trans ih

lemma wellFormed_workshop : workshop.WellFormed where
  entrance := by decide +kernel
  model := List.exists_mem_of_ne_nil _ (by decide +kernel)
  acyclic := checkAcyclic_eq_ok_iff.1 (by cbv)
  inline := by
    -- `Feeds` quantifies over all ids, so what is decided is about the layers.
    have houtputs : ∀ l ∈ workshop.layers, l.mode = .ca →
        l.entrance = false ∧ ∀ q ∈ workshop.layers, l.id ∉ q.output := by
      decide +kernel
    intro l hl hmode
    obtain ⟨hentrance, hnot⟩ := houtputs l hl hmode
    refine ⟨hentrance, ?_⟩
    rintro p ⟨q, hget, hmem⟩
    obtain rfl : q.id = p := Document.id_of_get? hget
    exact hnot q (Document.mem_layers_iff.2 hget) hmem
  declared := by
    have houtputs : ∀ l ∈ workshop.layers, ∀ n ∈ l.output, l.id ∈ (workshop.roles n).flatten := by
      decide +kernel
    rintro p n ⟨l, hget, hn⟩
    obtain rfl : l.id = p := Document.id_of_get? hget
    exact Document.declares_iff.2 (houtputs l (Document.mem_layers_iff.2 hget) n hn)
  roles := by decide +kernel
  set := by decide +kernel
  referable := by decide +kernel
  grounded id hloop := Nat.lt_irrefl _ (workshopDepth_lt_of_reaches hloop)

/-- The lines of the statements of `workshop`. -/
def workshopLines : List String :=
  ["x = layers.Input(name=\"in\")",
    "y = layers.Wrapper(layer=layers.Dense(units=64, " ++
      "init=initializers.HeNormal(seed=self.seed)), twin=v)(x)",
    "z = layers.Merge(like=[y, layers.Dense(units=64, " ++
      "init=initializers.HeNormal(seed=self.seed))])(x)",
    "v = layers.Add()([z, y])",
    "model = models.Model(inputs=x, outputs=v)"]

theorem exists_compile_workshop :
    workshop.WellFormed ∧ ∃ c, compile workshop = .ok c ∧ c.lines = workshopLines ∧
      c.endpoints = ["model"] := by
  have hrun : (evaluate workshop 12 9).map (fun c => (c.lines, c.endpoints)) =
      some (workshopLines, ["model"]) := by
    decide +kernel
  obtain ⟨c', hc', hrecord⟩ := Option.map_eq_some_iff.1 hrun
  obtain ⟨c, hc⟩ := exists_compile_of_wellFormed workshop wellFormed_workshop
  have hcompile := compile_of_evaluate wellFormed_workshop.validate_eq_ok hc'
  obtain rfl : c' = c := Except.ok.inj (hcompile.symm.trans hc)
  exact ⟨wellFormed_workshop, c', hc, congrArg Prod.fst hrecord, congrArg Prod.snd hrecord⟩

end Flow

end NetDiagram
