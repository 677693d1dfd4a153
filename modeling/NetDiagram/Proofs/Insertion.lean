import NetDiagram.Proofs.Accounting
import NetDiagram.Proofs.Cycles

/-!
# Entities that nothing leads to

A document is compiled by following ids: from layers along their outputs, and from arguments to
what they refer to.  An entity whose id occurs in none of these places is never met, wherever it
stands among the other entities, and whatever it refers to itself.

`Detached d before e after d'` says that `d'` is the document `d` with such an entity `e` put
between two parts of it.  The two documents are compiled step by step in the same way.  What is
left of a detached layer is a warning that it is unused, at its place among the warnings of that
kind.

## Main statements

* `Detached.run_eq`: the arguments of all other entities are rendered in the same way, with the
  same faults.
* `Detached.next_eq`: the walks of the two documents take the same steps.
* `Detached.outcome_eq`: they lead to the same draft, or to the same fault.
* `Detached.compile_eq`, `Detached.exists_compile_eq`: what becomes of a compilation when a value
  or a layer is put into its document.
-/

namespace NetDiagram.Flow

/-- The second document is the first one with one more entity, to which nothing leads: no layer of
the first document has its id among its outputs, and no argument refers to it. -/
structure Detached (d : Document) (before : List Entity) (e : Entity) (after : List Entity)
    (d' : Document) : Prop where
  entities : d.entities = before ++ after
  entities_inserted : d'.entities = before ++ e :: after
  output : ∀ l ∈ d.layers, e.id ∉ l.output
  args : ∀ other ∈ d.entities, e.id ∉ references other.args

namespace Detached

variable {d d' : Document} {before after : List Entity} {e : Entity}

/-! ## Lookups -/

lemma get?_eq_none (h : Detached d before e after d') : d.get? e.id = none := by
  have hnodup := d'.nodup
  rw [h.entities_inserted, List.map_append, List.map_cons, List.nodup_middle,
    List.nodup_cons, ← List.map_append, ← h.entities] at hnodup
  rw [Document.get?, List.find?_eq_none]
  intro other hother
  have hne : other.id ≠ e.id := fun heq => hnodup.1 (heq ▸ List.mem_map_of_mem hother)
  simpa using hne

lemma ne_of_get? (h : Detached d before e after d') {id : NodeId} {other : Entity}
    (hget : d.get? id = some other) : id ≠ e.id := by
  rintro rfl
  simp [h.get?_eq_none] at hget

lemma get?_eq (h : Detached d before e after d') {id : NodeId} (hid : id ≠ e.id) :
    d'.get? id = d.get? id := by
  have hne : (e.id == id) = false := by simpa using Ne.symm hid
  simp only [Document.get?, h.entities, h.entities_inserted, List.find?_append, List.find?_cons,
    hne]

lemma filterMap_get?_eq (h : Detached d before e after d') {ids : List NodeId}
    (hids : e.id ∉ ids) : ids.filterMap d'.get? = ids.filterMap d.get? := by
  refine List.filterMap_congr fun id hid => h.get?_eq ?_
  rintro rfl
  exact hids hid

/-! ## Rendering -/

/-- A reference runs alike if the arguments of its target do. -/
lemma run_reference_eq (h : Detached d before e after d') {trail : List NodeId} {owner : Entity}
    {a : Argument} {id : NodeId} (htrail : e.id ∉ trail) (hid : id ≠ e.id)
    (hargs : ∀ target, d.get? id = some target → id ∉ trail → ∀ s,
      (Piece.args target.args).run d' (trail ++ [id]) target s =
        (Piece.args target.args).run d (trail ++ [id]) target s) (s : Scope) :
    (renderReference d' trail owner a id).run s = (renderReference d trail owner a id).run s := by
  simp only [run_renderReference, h.get?_eq hid, h.filterMap_get?_eq htrail]
  cases s.name? id with
  | some text => rfl
  | none =>
    cases hget : d.get? id with
    | none => rfl
    | some target =>
      dsimp only
      cases inlineCall? target with
      | none => rfl
      | some call =>
        obtain ⟨source, className⟩ := call
        by_cases hnew : id ∈ trail
        · simp only [hnew, if_true]
        · have hinner := hargs target hget hnew (s.touch source)
          simp only [Piece.run] at hinner
          simp only [hnew, if_false, hinner]

lemma run_renderReference_congr {trail : List NodeId} {owner : Entity} {a : Argument} {id : NodeId}
    {s : Scope} (h : (Piece.reference a id).run d' trail owner s =
      (Piece.reference a id).run d trail owner s) :
    (renderReference d' trail owner a id).run s = (renderReference d trail owner a id).run s := by
  simp only [Piece.run] at h
  cases hrun' : (renderReference d' trail owner a id).run s with
  | error fault' =>
    cases hrun : (renderReference d trail owner a id).run s with
    | error fault => simpa [hrun, hrun'] using h
    | ok r => simp [hrun, hrun'] at h
  | ok r' =>
    cases hrun : (renderReference d trail owner a id).run s with
    | error fault => simp [hrun, hrun'] at h
    | ok r =>
      simp only [hrun, hrun', Except.ok.injEq, Prod.mk.injEq, List.cons.injEq, and_true] at h
      rw [Prod.ext h.1 h.2]

/-- **Rendering does not meet the new entity.**  A piece that does not refer to it is rendered in
the same way, or fails in the same way. -/
theorem run_eq (h : Detached d before e after d') {trail : List NodeId} {owner : Entity}
    {piece : Piece} (htrail : e.id ∉ trail) (hrefs : e.id ∉ piece.references) (s : Scope) :
    piece.run d' trail owner s = piece.run d trail owner s := by
  -- the new id is kept off the trail too, since a fault names the entities of the trail
  induction trail, owner, piece using Piece.induction (d := d) generalizing s with
  | noArgs trail owner => simp only [Piece.run, run_renderArgs_nil]
  | arg trail owner a rest ihitems ihrest =>
    rw [Piece.references_args_cons, List.mem_append, not_or] at hrefs
    have hitems := ihitems htrail hrefs.1
    have hrest := ihrest htrail hrefs.2
    simp only [Piece.run] at hitems hrest ⊢
    simp only [run_renderArgs_cons, hitems, hrest]
  | noItems trail owner a => simp only [Piece.run, run_renderItems_nil]
  | literal trail owner a item rest hk ihrest =>
    have hrest := ihrest htrail (by simp [Piece.references, hk])
    simp only [Piece.run] at hrest ⊢
    simp only [run_renderItems_literal hk, hrest]
  | item trail owner a item rest hk ihreference ihrest =>
    rw [Piece.references_items_cons hk, List.mem_append, not_or] at hrefs
    have hreference := fun s => run_renderReference_congr (ihreference htrail hrefs.1 s)
    have hrest := ihrest htrail hrefs.2
    simp only [Piece.run] at hrest ⊢
    simp only [run_renderItems_reference hk, hreference, hrest]
  | reference trail owner a id ihargs =>
    have hid : id ≠ e.id := fun heq => hrefs (List.mem_singleton.2 heq.symm)
    have hrun : (renderReference d' trail owner a id).run s =
        (renderReference d trail owner a id).run s :=
      h.run_reference_eq htrail hid (fun target hget hnew => ihargs target hget hnew
        (by simpa [htrail] using Ne.symm hid) (h.args target (Document.mem_of_get? hget))) s
    simp only [Piece.run, hrun]

lemma run_args_eq (h : Detached d before e after d') {id : NodeId} {other : Entity}
    (hget : d.get? id = some other) (s : Scope) :
    (renderArgs d' [] other other.args).run s = (renderArgs d [] other other.args).run s := by
  have hrefs : e.id ∉ (Piece.args other.args).references := h.args other (Document.mem_of_get? hget)
  have hrun : (Piece.args other.args).run d' [] other s =
      (Piece.args other.args).run d [] other s := h.run_eq List.not_mem_nil hrefs s
  simpa only [Piece.run] using hrun

/-! ## Walks -/

lemma writeLayer_eq (h : Detached d before e after d') {l : Layer}
    (hget : d.get? l.id = some (.layer l)) (t : Draft) (call : Option String) :
    Draft.writeLayer d' t l call = Draft.writeLayer d t l call := by
  have hrun : (renderArgs d' [] (.layer l) l.args).run (t.scope.touch layerSource) =
      (renderArgs d [] (.layer l) l.args).run (t.scope.touch layerSource) := h.run_args_eq hget _
  simp only [Draft.writeLayer, hrun]

lemma writeModel_eq (h : Detached d before e after d') {m : Model}
    (hget : d.get? m.id = some (.model m)) (t : Draft) :
    Draft.writeModel d' t m = Draft.writeModel d t m := by
  have hrun : (renderArgs d' [] (.model m) m.args).run (t.scope.touch modelSource) =
      (renderArgs d [] (.model m) m.args).run (t.scope.touch modelSource) := h.run_args_eq hget _
  simp only [Draft.writeModel, hrun]

lemma reachModel_eq (h : Detached d before e after d') {m : Model}
    (hget : d.get? m.id = some (.model m)) (t : Draft) (p : Layer) :
    Draft.reachModel d' t p m = Draft.reachModel d t p m := by
  simp only [Draft.reachModel, h.writeModel_eq hget]

lemma predecessorVars_eq (h : Detached d before e after d') {ids : List NodeId}
    (hids : e.id ∉ ids) : Draft.predecessorVars d' ids = Draft.predecessorVars d ids := by
  refine List.filterMap_congr fun id hid => ?_
  rw [h.get?_eq]
  rintro rfl
  exact hids hid

/-- A layer that joins others is called with their variables only when all of them have
statements, and the new entity has none. -/
lemma reachLayer_eq (h : Detached d before e after d') {entrances : List Layer}
    {rest : List (Layer × NodeId)} {p l : Layer} {t : Draft}
    (hreached : Walk.Reached d ⟨entrances, (p, l.id) :: rest, t⟩)
    (hget : d.get? l.id = some (.layer l)) :
    Draft.reachLayer d' t p l = Draft.reachLayer d t p l := by
  obtain ⟨nodes, hnodes⟩ := hreached.transcribes
  have hroles : ∀ ids, l.input = .many ids → (Entity.layer l).roles = [ids] := by
    intro ids hinput
    simp [Entity.roles, hinput, Inputs.ids]
  -- The variables are only looked up when the join is complete, and then all are in the old
  -- document.
  have hvars : ∀ ids ledger, l.input = .many ids →
      (t.ledger.register l.id [ids]).arrive l.id p.id = (.satisfied, ledger) →
      Draft.predecessorVars d' ids = Draft.predecessorVars d ids := by
    intro ids ledger hinput harrive
    rw [← hroles ids hinput] at harrive
    obtain ⟨-, hall⟩ := hreached.coherent.predecessors hnodes hget harrive
    refine h.predecessorVars_eq fun hmem => ?_
    obtain ⟨q, hq, -⟩ := hall e.id (by simpa [hinput, Inputs.ids] using hmem)
    exact h.ne_of_get? hq rfl
  unfold Draft.reachLayer
  split
  · rfl
  · cases hinput : l.input with
    | none => rfl
    | single id => rfl
    | many ids =>
      dsimp only
      split
      · rename_i ledger harrive
        rw [hvars ids ledger hinput harrive]
      · rfl
      · rfl

lemma visit_eq (h : Detached d before e after d') {entrances : List Layer}
    {rest : List (Layer × NodeId)} {p : Layer} {n : NodeId} {t : Draft}
    (hreached : Walk.Reached d ⟨entrances, (p, n) :: rest, t⟩) :
    Walk.visit d' t p n = Walk.visit d t p n := by
  obtain ⟨hp, -, hn⟩ := hreached.coherent.source_mem p n List.mem_cons_self
  -- The connection comes from a layer of the old document, which is not connected to the new one.
  have hne : n ≠ e.id := by
    rintro rfl
    exact h.output p (Document.mem_layers_iff.2 hp) hn
  unfold Walk.visit
  rw [h.get?_eq hne]
  cases hget : d.get? n with
  | none => rfl
  | some target =>
    cases target with
    | model m =>
      obtain rfl : m.id = n := Document.id_of_get? hget
      simp only [h.reachModel_eq hget]
    | layer l =>
      obtain rfl : l.id = n := Document.id_of_get? hget
      simp only [h.reachLayer_eq hreached hget, h.writeLayer_eq hget]
    | _ => rfl

/-- **The two documents take the same steps.** -/
theorem next_eq (h : Detached d before e after d') {w : Walk} (hreached : Walk.Reached d w) :
    w.next d' = w.next d := by
  obtain ⟨entrances, links, t⟩ := w
  cases links with
  | cons link rest =>
    obtain ⟨p, n⟩ := link
    simp only [Walk.next, h.visit_eq hreached]
  | nil =>
    cases entrances with
    | nil => rfl
    | cons l entrances =>
      have hl := hreached.coherent.entrance_mem l List.mem_cons_self
      simp only [Walk.next, h.writeLayer_eq (Document.mem_entrances_iff.1 hl).1]

/-- **The two documents lead to the same.** -/
theorem outcome_eq (h : Detached d before e after d') {w : Walk} (hreached : Walk.Reached d w) :
    w.outcome d' = w.outcome d := by
  induction w using Walk.next_induction (d := d) with
  | hend t => simp
  | hnext w ih =>
    rw [Walk.outcome_eq d', Walk.outcome_eq d, h.next_eq hreached]
    cases hnext : w.next d with
    | error fault => rfl
    | ok w' => exact ih w' hnext (hreached.next hnext)

/-! ## Compilations -/

lemma layers_eq (h : Detached d before e after d') :
    d.layers = before.filterMap Entity.layer? ++ after.filterMap Entity.layer? := by
  rw [Document.layers, h.entities, List.filterMap_append]

lemma layers_inserted_eq (h : Detached d before e after d') :
    d'.layers =
      before.filterMap Entity.layer? ++ (e.layer?.toList ++ after.filterMap Entity.layer?) := by
  rw [Document.layers, h.entities_inserted, List.filterMap_append]
  cases hlayer : e.layer? with
  | none => rw [List.filterMap_cons_none hlayer, Option.toList_none, List.nil_append]
  | some l => rw [List.filterMap_cons_some hlayer, Option.toList_some, List.singleton_append]

lemma models_inserted_eq (h : Detached d before e after d') (hmodel : e.model? = none) :
    d'.models = d.models := by
  simp only [Document.models, h.entities, h.entities_inserted, List.filterMap_append,
    List.filterMap_cons_none hmodel]

lemma entrances_inserted_eq (h : Detached d before e after d')
    (hlayer : ∀ l, e.layer? = some l → l.entrance = false) : d'.entrances = d.entrances := by
  rw [Document.entrances, Document.entrances, h.layers_eq, h.layers_inserted_eq]
  cases he : e.layer? with
  | none => simp
  | some l => simp [hlayer l he]

/-- The two documents lead to the same draft, or to the same fault. -/
theorem enterAll_eq (h : Detached d before e after d')
    (hlayer : ∀ l, e.layer? = some l → l.entrance = false) :
    Draft.enterAll d' d'.entrances {} = Draft.enterAll d d.entrances {} := by
  have hstart : Walk.start d' = Walk.start d := by
    rw [Walk.start, Walk.start, h.entrances_inserted_eq hlayer]
  rw [← Walk.outcome_start, ← Walk.outcome_start, hstart, h.outcome_eq .start]

/-! ### Values -/

lemma flowEntities_inserted_eq (h : Detached d before e after d') (hlayer : e.layer? = none)
    (hmodel : e.model? = none) : flowEntities d' = flowEntities d := by
  simp only [flowEntities, h.entities, h.entities_inserted, List.filter_append, List.filter_cons]
  cases e with
  | layer l => simp [Entity.layer?] at hlayer
  | model m => simp [Entity.model?] at hmodel
  | _ => rfl

lemma validate_eq (h : Detached d before e after d') (hlayer : e.layer? = none)
    (hmodel : e.model? = none) : validate d' = validate d := by
  have helim : ∀ d : Document, checkAcyclic d =
      (flowLinks d).cycle?.elim (.ok ()) fun i => .error (.cyclic ((flowEntities d).get i)) := by
    intro d
    unfold checkAcyclic
    cases (flowLinks d).cycle? <;> rfl
  -- the nodes of the two graphs have the same numbers
  have hacyclic : checkAcyclic d' = checkAcyclic d := by
    rw [helim, helim]
    unfold flowLinks
    rw [h.flowEntities_inserted_eq hlayer hmodel]
  rw [validate, validate, h.entrances_inserted_eq (by simp [hlayer]), h.models_inserted_eq hmodel,
    hacyclic]

/-- **A value that nothing refers to does not matter.** -/
theorem compile_eq (h : Detached d before e after d') (hlayer : e.layer? = none)
    (hmodel : e.model? = none) : compile d' = compile d := by
  have hlayers : d'.layers = d.layers := by simp [h.layers_eq, h.layers_inserted_eq, hlayer]
  have hfinish : ∀ t, Draft.finish d' t = Draft.finish d t := by
    intro t
    simp only [Draft.finish, unusedLayers, unreleasedModels, hlayers, h.models_inserted_eq hmodel]
  simp only [compile, walk, h.validate_eq hlayer hmodel,
    h.enterAll_eq (fun l hl => by simp [hlayer] at hl), hfinish]

/-! ### Layers -/

section Layer

variable {l : Layer} {t : Draft}

/-- Nothing leads to the new layer, not even the layer itself. -/
lemma ne_of_leads (h : Detached d before (.layer l) after d') (hself : l.id ∉ l.output)
    {p n : NodeId} (hleads : d'.Leads p n) : n ≠ l.id := by
  obtain ⟨⟨q, hq, hn⟩, -⟩ := hleads
  rintro rfl
  by_cases hp : p = l.id
  · have hl : d'.get? p = some (.layer l) := by
      rw [Document.get?_eq_some_iff, h.entities_inserted]
      exact ⟨by simp, hp.symm⟩
    obtain rfl : q = l := by simpa [hq] using hl
    exact hself hn
  · rw [h.get?_eq hp] at hq
    obtain rfl : q.id = p := Document.id_of_get? hq
    exact h.output q (Document.mem_layers_iff.2 hq) hn

lemma leads_of_leads (h : Detached d before (.layer l) after d') (hself : l.id ∉ l.output)
    {p n : NodeId} (hp : p ≠ l.id) (hleads : d'.Leads p n) : d.Leads p n := by
  have hn := h.ne_of_leads hself hleads
  unfold Document.Leads Document.Feeds at hleads ⊢
  rwa [h.get?_eq hp, h.get?_eq hn] at hleads

lemma not_onCycle (h : Detached d before (.layer l) after d') (hself : l.id ∉ l.output)
    (hacyclic : ∀ id, ¬ d.OnCycle id) (id : NodeId) : ¬ d'.OnCycle id := by
  have hne : ∀ {p n}, Relation.TransGen d'.Leads p n → n ≠ l.id := by
    intro p n hpath
    cases hpath with
    | single hleads => exact h.ne_of_leads hself hleads
    | tail _ hleads => exact h.ne_of_leads hself hleads
  have hlift : ∀ {p n}, p ≠ l.id → Relation.TransGen d'.Leads p n →
      Relation.TransGen d.Leads p n := by
    intro p n hp hpath
    induction hpath with
    | single hleads => exact .single (h.leads_of_leads hself hp hleads)
    | tail hpath hleads ih => exact ih.tail (h.leads_of_leads hself (hne hpath) hleads)
  intro hcycle
  exact hacyclic id (hlift (hne hcycle) hcycle)

lemma validate_layer (h : Detached d before (.layer l) after d') (hentrance : l.entrance = false)
    (hself : l.id ∉ l.output) (hvalid : validate d = .ok ()) : validate d' = .ok () := by
  have hentrances : d'.entrances = d.entrances :=
    h.entrances_inserted_eq fun l' hl' => by simpa [← Option.some.inj hl'] using hentrance
  unfold validate at hvalid ⊢
  rw [hentrances, h.models_inserted_eq rfl]
  split at hvalid
  · simp at hvalid
  · split at hvalid
    · simp at hvalid
    · rename_i hsome hmodel
      rw [if_neg hsome, if_neg hmodel, checkAcyclic_eq_ok_iff]
      exact h.not_onCycle hself (checkAcyclic_eq_ok_iff.1 hvalid)

/-- The new layer is not written, and it is not written inside a statement. -/
lemma not_mem_draft (h : Detached d before (.layer l) after d')
    (hreached : Walk.Reached d ⟨[], [], t⟩) : l.id ∉ t.emitted ∧ l.id ∉ t.scope.inlined := by
  obtain ⟨nodes, hnodes⟩ := hreached.transcribes
  constructor
  · intro hmem
    rw [hnodes.emitted, List.mem_map] at hmem
    obtain ⟨other, hother, heq⟩ := hmem
    exact h.ne_of_get? (hnodes.transcript.get?_of_mem hother) heq
  · intro hmem
    obtain ⟨-, -, -, other, hother, -⟩ := (hnodes.scope.inlined l.id).1 hmem
    exact h.ne_of_get? hother rfl

end Layer

end Detached

/-- The second compilation is the first one with one more warning: that a layer between the two
lists of entities is unused.  It stands after those about layers of the first list, and before those
about layers of the second. -/
structure Compilation.WarnsAlso (before : List Entity) (l : Layer) (after : List Entity)
    (c c' : Compilation) : Prop where
  statements : c'.statements = c.statements
  endpoints : c'.endpoints = c.endpoints
  placeholders : c'.placeholders = c.placeholders
  sources : c'.sources = c.sources
  notices : ∃ earlier later, c.notices = earlier ++ later ∧
    c'.notices = earlier ++ .unusedLayer l :: later ∧
    (∀ n ∈ earlier, n.diagnostic.code.map Code.name = some "W004" ∨
      ∃ k, .layer k ∈ before ∧ n = .unusedLayer k) ∧
    ∀ n ∈ later, n.diagnostic.code.map Code.name = some "W002" ∨
      ∃ k, .layer k ∈ after ∧ n = .unusedLayer k
  code : (Notice.unusedLayer l).diagnostic.code.map Code.name = some "W001"
  once : (c.warned "W001").count l.id = 0 ∧ (c'.warned "W001").count l.id = 1

namespace Detached

variable {d d' : Document} {before after : List Entity} {l : Layer} {t : Draft}

/-- The layers of a part of the document that are reported as unused. -/
def unusedIn (t : Draft) (part : List Entity) : List Notice :=
  ((part.filterMap Entity.layer?).filter fun k =>
    !(t.emitted.contains k.id || t.scope.inlined.contains k.id)).map Notice.unusedLayer

lemma mem_unusedIn {part : List Entity} {n : Notice} (hn : n ∈ unusedIn t part) :
    ∃ k, .layer k ∈ part ∧ n = .unusedLayer k := by
  obtain ⟨k, hk, rfl⟩ := List.mem_map.1 hn
  obtain ⟨e, he, hlayer⟩ := List.mem_filterMap.1 (List.mem_filter.1 hk).1
  cases e with
  | layer k' =>
    obtain rfl : k' = k := by simpa [Entity.layer?] using hlayer
    exact ⟨k', he, rfl⟩
  | _ => simp [Entity.layer?] at hlayer

lemma unusedLayers_eq (h : Detached d before (.layer l) after d') :
    unusedLayers d t = unusedIn t before ++ unusedIn t after := by
  simp only [unusedLayers, unusedIn, h.layers_eq, List.filter_append, List.map_append]

lemma unusedLayers_inserted_eq (h : Detached d before (.layer l) after d')
    (hreached : Walk.Reached d ⟨[], [], t⟩) :
    unusedLayers d' t = unusedIn t before ++ .unusedLayer l :: unusedIn t after := by
  obtain ⟨hemitted, hinlined⟩ := h.not_mem_draft hreached
  simp [unusedLayers, unusedIn, h.layers_inserted_eq, Entity.layer?, hemitted, hinlined]

lemma warnsAlso (h : Detached d before (.layer l) after d')
    (hreached : Walk.Reached d ⟨[], [], t⟩) :
    (t.finish d).WarnsAlso before l after (t.finish d') := by
  obtain ⟨nodes, hnodes⟩ := hreached.transcribes
  have hmodels : unreleasedModels d' t = unreleasedModels d t := by
    rw [unreleasedModels, unreleasedModels, h.models_inserted_eq rfl]
  have hnotices : (t.finish d).notices =
      (t.scope.notices ++ unusedIn t before) ++ (unusedIn t after ++ unreleasedModels d t) := by
    simp [Draft.finish, h.unusedLayers_eq]
  have hnotices' : (t.finish d').notices = (t.scope.notices ++ unusedIn t before) ++
      .unusedLayer l :: (unusedIn t after ++ unreleasedModels d t) := by
    simp [Draft.finish, h.unusedLayers_inserted_eq hreached, hmodels]
  have hcode : (Notice.unusedLayer l).diagnostic.code.map Code.name = some "W001" :=
    (Notice.code_eq_iff (c := .unusedLayer)).1 rfl
  -- In the old document no layer has the id, so the warning is the only one about it.
  have hnone : ((t.finish d).warned "W001").count l.id = 0 := by
    rw [hnodes.warned_unused, List.count_eq_zero]
    intro hmem
    obtain ⟨k, hk, heq⟩ := List.mem_map.1 hmem
    exact h.ne_of_get? (Document.mem_layers_iff.1 (List.mem_filter.1 hk).1) heq
  refine ⟨rfl, rfl, rfl, rfl, ⟨_, _, hnotices, hnotices', ?_, ?_⟩, hcode, hnone, ?_⟩
  · intro n hn
    rcases List.mem_append.1 hn with hscope | hunused
    · exact Or.inl (Notice.code_eq_iff.1 (hnodes.code_of_mem_notices hscope))
    · exact Or.inr (mem_unusedIn hunused)
  · intro n hn
    rcases List.mem_append.1 hn with hunused | hmodel
    · exact Or.inr (mem_unusedIn hunused)
    · exact Or.inl (Notice.code_eq_iff.1 (code_of_mem_unreleasedModels hmodel))
  · have hcons : ∀ notices, subjects "W001" (.unusedLayer l :: notices) =
        l.id :: subjects "W001" notices := by
      intro notices
      rw [subjects, List.filterMap_cons_some (by rw [if_pos hcode]; rfl), subjects]
    rw [Compilation.warned, hnotices, subjects_append, List.count_append] at hnone
    rw [Compilation.warned, hnotices', subjects_append, List.count_append, hcons,
      List.count_cons_self]
    omega

/-- **A layer that nothing leads to is only warned about.** -/
theorem exists_compile_eq (h : Detached d before (.layer l) after d')
    (hentrance : l.entrance = false) (hself : l.id ∉ l.output) {c : Compilation}
    (hc : compile d = .ok c) : ∃ c', compile d' = .ok c' ∧ c.WarnsAlso before l after c' := by
  have hvalid : validate d = .ok () := by
    unfold compile at hc
    split at hc
    · simp at hc
    · assumption
  obtain ⟨t, hreached, rfl⟩ := exists_reached_of_compile hc
  have hall : Draft.enterAll d' d'.entrances {} = .ok t := by
    rw [h.enterAll_eq fun l' hl' => by simpa [← Option.some.inj hl'] using hentrance,
      ← hreached.outcome, Walk.outcome_finished]
  refine ⟨t.finish d', ?_, h.warnsAlso hreached⟩
  simp only [compile, walk, h.validate_layer hentrance hself hvalid, hall]

end Detached

/-- **What nothing leads to does not interfere.**  A unit, a placeholder or a note with a new id
that is no output of a layer and that no argument refers to can be put anywhere into a document: the
result stays the same, or the fault.  A layer of this kind that is not an entrance and is not
connected to itself, whatever else it is connected to and whatever its arguments are, adds one
warning `W001` to a compilation, at its place among these warnings, and changes nothing else. -/
theorem detached_inert (d d' : Document) (before after : List Entity) (e : Entity)
    (h : Detached d before e after d') :
    ((∃ u, e = .unit u) ∨ (∃ p, e = .placeholder p) ∨ (∃ n, e = .note n) →
      compile d' = compile d) ∧
    ∀ l c, e = .layer l → l.entrance = false → l.id ∉ l.output → compile d = .ok c →
      ∃ c', compile d' = .ok c' ∧ c.WarnsAlso before l after c' := by
  constructor
  · rintro (⟨u, rfl⟩ | ⟨p, rfl⟩ | ⟨n, rfl⟩)
    · exact h.compile_eq rfl rfl
    · exact h.compile_eq rfl rfl
    · exact h.compile_eq rfl rfl
  · rintro l c rfl hentrance hself hc
    exact h.exists_compile_eq hentrance hself hc

/-- The document `remnants` with one more entity, between two layers that are not used. -/
def remnantsWith (e : Entity) (h : e.id ∉ remnants.entities.map Entity.id) : Document where
  entities := remnants.entities.take 3 ++ e :: remnants.entities.drop 3
  nodup := by
    rw [List.map_append, List.map_cons, List.nodup_middle, List.nodup_cons, ← List.map_append,
      List.take_append_drop]
    exact ⟨h, remnants.nodup⟩

/-- A layer with an argument that is not given, connected to a model that does not list it and to an
id that names nothing. -/
def looseLayer : Layer where
  id := .ofText "s"
  var := "s"
  className := "Dense"
  args := [⟨"units", "!REQ", .num⟩, ⟨"of", "s", .id⟩]
  output := [.ofText "m", .ofText "nowhere"]

/-- A unit that refers to itself. -/
def looseUnit : Entity :=
  .unit { id := .ofText "s", className := "Wrap", source := "gone", args := [⟨"of", "s", .id⟩] }

lemma detached_remnantsWith {e : Entity} (he : e.id = .ofText "s")
    (h : e.id ∉ remnants.entities.map Entity.id) :
    Detached remnants (remnants.entities.take 3) e (remnants.entities.drop 3)
      (remnantsWith e h) where
  entities := (List.take_append_drop 3 _).symm
  entities_inserted := rfl
  output := by
    rw [he]
    decide +kernel
  args := by
    rw [he]
    decide +kernel

/-- The unit changes nothing; the layer is reported after the layer `r` and before the layer `q`. -/
theorem detached_inert_remnants :
    (∃ h, compile (remnantsWith looseUnit h) = .ok remnantsResult) ∧
      ∃ h c, compile (remnantsWith (.layer looseLayer) h) = .ok c ∧
        remnantsResult.WarnsAlso (remnants.entities.take 3) looseLayer
          (remnants.entities.drop 3) c := by
  have hunit : looseUnit.id ∉ remnants.entities.map Entity.id := by decide +kernel
  have hlayer : (Entity.layer looseLayer).id ∉ remnants.entities.map Entity.id := by
    decide +kernel
  have hself : looseLayer.id ∉ looseLayer.output := by decide +kernel
  constructor
  · have heq := (detached_inert _ _ _ _ _ (detached_remnantsWith rfl hunit)).1 (Or.inl ⟨_, rfl⟩)
    exact ⟨hunit, heq.trans compile_remnants⟩
  · exact ⟨hlayer, (detached_inert _ _ _ _ _ (detached_remnantsWith rfl hlayer)).2
      looseLayer remnantsResult rfl rfl hself compile_remnants⟩

end NetDiagram.Flow
