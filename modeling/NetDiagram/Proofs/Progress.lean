import NetDiagram.Proofs.Delivery

/-!
# Compilations in progress

A compilation writes one statement after another, and each statement by rendering arguments within
arguments.  This file says where a compilation can be in the course of that.

A step of a walk leaves the text as it is or adds the statement of one node: `Draft.Continues` has
one rule for each case, and `Walk.Reached.induction_draft` derives what holds of every draft from
these rules.  A walk `Begins` the statement of an entity in a scope; the rendering of its arguments
is a `Run`, which starts further runs (`Run.Starts`) for the items, the references and the calls
inside it.  `Encounters d r` says that the compilation of the document comes to the run `r`.

## Main statements

* `Walk.Step.continues`: what a step does to the text.
* `Run.error_of_starts`: a run fails if a run fails that it starts.
* `Encounters.compile_eq_error`: the compilation fails with the fault of any run that it comes to.
-/

namespace NetDiagram.Flow

variable {d : Document}

/-! ## One statement after another -/

/-- What a step does to the text: nothing, or it adds the statement of a layer or a model. -/
inductive Draft.Continues (d : Document) (t : Draft) : Draft → Prop
  | idle (ledger : Ledger) : Continues d t { t with ledger := ledger }
  | layer {l : Layer} {texts : List String} {s : Scope} {call : Option String} {ledger : Ledger}
      (get : d.get? l.id = some (.layer l)) (mode : l.mode ≠ .ca)
      (renders : Renders d [] (.layer l) (.args l.args) (t.scope.touch layerSource) texts s) :
      Continues d t
        { t with
          ledger := ledger
          scope := s.bind l.id l.var
          statements := t.statements ++
            [⟨l.var, layerSource, l.className, ", ".intercalate texts, call⟩]
          emitted := t.emitted ++ [l.id] }
  | model {m : Model} {texts : List String} {s : Scope} {ledger : Ledger}
      (get : d.get? m.id = some (.model m))
      (set : ∀ name, name = Model.inputsName ∨ name = Model.outputsName →
        Draft.roleIds m name = .ok (m.listed name))
      (renders : Renders d [] (.model m) (.args m.args) (t.scope.touch modelSource) texts s) :
      Continues d t
        { t with
          ledger := ledger
          scope := s
          statements := t.statements ++
            [⟨m.var, modelSource, m.className, ", ".intercalate texts, none⟩]
          endpoints := t.endpoints ++ [m.var]
          emitted := t.emitted ++ [m.id] }

namespace Walk

variable {w w' : Walk}

/-- **What a step does to the text.** -/
theorem Step.continues (hs : Step d w w') (hc : w.Coherent d) :
    w.draft.Continues d w'.draft := by
  cases hs with
  | skip _ => exact .idle _
  | again _ _ _ => exact .idle _
  | pending _ _ => exact .idle _
  | @enter l entrances t t' hmode _ hwrite =>
    obtain ⟨texts, s, hr, rfl⟩ := Draft.renders_of_writeLayer hwrite
    have hget := (Document.mem_entrances_iff.1 (hc.entrance_mem l List.mem_cons_self)).1
    exact .layer hget hmode hr
  | single hget hmode _ _ hwrite =>
    obtain ⟨texts, s, hr, rfl⟩ := Draft.renders_of_writeLayer hwrite
    exact .layer hget hmode hr
  | joinLayer hget hmode _ _ _ hwrite =>
    obtain ⟨texts, s, hr, rfl⟩ := Draft.renders_of_writeLayer hwrite
    exact .layer hget hmode hr
  | joinModel hget _ hwrite hset =>
    obtain ⟨texts, s, hr, rfl⟩ := Draft.renders_of_writeModel hwrite
    exact .model hget hset hr

/-- What holds of the empty draft and is kept by one more statement holds of every draft of a
compilation. -/
theorem Reached.induction_draft {P : Draft → Prop} (h : Reached d w) (hstart : P {})
    (hstep : ∀ t t', t.Continues d t' → P t → P t') : P w.draft :=
  h.induction (P := fun w => P w.draft) hstart
    fun _ _ hreached hs hw => hstep _ _ (hs.continues hreached.coherent) hw

/-- The next step of the walk begins the statement of the entity, in the given scope.  A model has
been joined then: the arrival that is next completes what it lists. -/
inductive Begins (d : Document) : Walk → Entity → Scope → Prop
  | entrance {l : Layer} {entrances : List Layer} {t : Draft} (mode : l.mode ≠ .ca)
      (new : l.id ∉ t.emitted) :
      Begins d ⟨l :: entrances, [], t⟩ (.layer l) (t.scope.touch layerSource)
  | layer {p l : Layer} {entrances : List Layer} {rest : List (Layer × NodeId)} {t : Draft}
      {ledger : Ledger} {call : String} (get : d.get? l.id = some (.layer l)) (mode : l.mode ≠ .ca)
      (reach : Draft.reachLayer d t p l = .ok (ledger, some call)) :
      Begins d ⟨entrances, (p, l.id) :: rest, t⟩ (.layer l) (t.scope.touch layerSource)
  | model {p : Layer} {m : Model} {inputs outputs : List NodeId} {entrances : List Layer}
      {rest : List (Layer × NodeId)} {t : Draft} {ledger : Ledger}
      (get : d.get? m.id = some (.model m))
      (inputs_eq : Draft.roleIds m Model.inputsName = .ok inputs)
      (outputs_eq : Draft.roleIds m Model.outputsName = .ok outputs)
      (arrive : (t.ledger.register m.id [inputs, outputs]).arrive m.id p.id =
        (.satisfied, ledger)) :
      Begins d ⟨entrances, (p, m.id) :: rest, t⟩ (.model m) (t.scope.touch modelSource)

lemma Begins.next_eq_error {e : Entity} {s : Scope} {fault : Fault} (h : w.Begins d e s)
    (hrun : (renderArgs d [] e e.args).run s = .error fault) : w.next d = .error fault := by
  cases h with
  | @entrance l _ t hmode hnew =>
    have hwrite : Draft.writeLayer d t l none = .error fault := by
      simp only [Entity.args] at hrun
      simp only [Draft.writeLayer, hrun]
    simp [next, hmode, hnew, hwrite]
  | @layer p l _ _ t ledger call hget hmode hreach =>
    have hwrite : Draft.writeLayer d { t with ledger := ledger } l (some call) = .error fault := by
      simp only [Entity.args] at hrun
      simp only [Draft.writeLayer, hrun]
    simp [next, visit, hget, hmode, hreach, hwrite]
  | @model p m inputs outputs _ _ t ledger hget hinputs houtputs harrive =>
    have hwrite : Draft.writeModel d { t with ledger := ledger } m = .error fault := by
      simp only [Entity.args] at hrun
      simp only [Draft.writeModel, hrun]
    simp [next, visit, hget, Draft.reachModel, hinputs, houtputs, harrive, hwrite]

lemma Begins.exists_touch {e : Entity} {s : Scope} (h : w.Begins d e s) :
    ∃ source, s = w.draft.scope.touch source := by
  cases h with
  | entrance _ _ => exact ⟨_, rfl⟩
  | layer _ _ _ => exact ⟨_, rfl⟩
  | model _ _ _ _ => exact ⟨_, rfl⟩

end Walk

/-! ## Runs within runs -/

/-- A run of the rendering program. -/
structure Run where
  trail : List NodeId
  owner : Entity
  piece : Piece
  scope : Scope

namespace Run

/-- What the run ends with. -/
def result (d : Document) (r : Run) : Except Fault (List String × Scope) :=
  r.piece.run d r.trail r.owner r.scope

/-- The first run starts the second one. -/
inductive Starts (d : Document) : Run → Run → Prop
  | items {trail : List NodeId} {owner : Entity} {a : Argument} {rest : List Argument} {s : Scope}
      (set : a.isUnset = false) :
      Starts d ⟨trail, owner, .args (a :: rest), s⟩
        ⟨trail, owner, .items a (a.items.map Text.trim), s⟩
  /-- The first argument is done. -/
  | args {trail : List NodeId} {owner : Entity} {a : Argument} {rest : List Argument}
      {s s₁ : Scope} {items : List String} (set : a.isUnset = false)
      (first : Renders d trail owner (.items a (a.items.map Text.trim)) s items s₁) :
      Starts d ⟨trail, owner, .args (a :: rest), s⟩ ⟨trail, owner, .args rest, s₁⟩
  | reference {trail : List NodeId} {owner : Entity} {a : Argument} {item : String}
      {rest : List String} {s : Scope} (kind : a.kind = .id) :
      Starts d ⟨trail, owner, .items a (item :: rest), s⟩
        ⟨trail, owner, .reference a (.ofText item), s⟩
  /-- The first item is done, a reference. -/
  | moreItems {trail : List NodeId} {owner : Entity} {a : Argument} {item text : String}
      {rest : List String} {s s₁ : Scope} (kind : a.kind = .id)
      (first : Renders d trail owner (.reference a (.ofText item)) s [text] s₁) :
      Starts d ⟨trail, owner, .items a (item :: rest), s⟩ ⟨trail, owner, .items a rest, s₁⟩
  /-- The first item is done, a literal. -/
  | moreLiterals {trail : List NodeId} {owner : Entity} {a : Argument} {item : String}
      {rest : List String} {s : Scope} (kind : a.kind ≠ .id) :
      Starts d ⟨trail, owner, .items a (item :: rest), s⟩ ⟨trail, owner, .items a rest, s⟩
  | call {trail : List NodeId} {owner : Entity} {a : Argument} {id : NodeId} {s : Scope}
      {target : Entity} {source className : String} (name : s.name? id = none)
      (get : d.get? id = some target) (inline : inlineCall? target = some (source, className))
      (new : id ∉ trail) :
      Starts d ⟨trail, owner, .reference a id, s⟩
        ⟨trail ++ [id], target, .args target.args, s.touch source⟩

variable {r r' : Run} {fault : Fault}

lemma result_reference_eq_error_iff {trail : List NodeId} {owner : Entity} {a : Argument}
    {id : NodeId} {s : Scope} :
    result d ⟨trail, owner, .reference a id, s⟩ = .error fault ↔
      (renderReference d trail owner a id).run s = .error fault := by
  simp only [result, Piece.run]
  cases (renderReference d trail owner a id).run s <;> simp

/-- **Failures spread.**  A run fails if a run fails that it starts, and with the same fault. -/
theorem error_of_starts (h : Starts d r r') (hr : r'.result d = .error fault) :
    r.result d = .error fault := by
  cases h with
  | items set =>
    simp only [result, Piece.run] at hr ⊢
    simp only [run_renderArgs_cons, set, Bool.false_eq_true, if_false, hr]
  | args set first =>
    have hfirst := first.run
    simp only [result, Piece.run] at hr hfirst ⊢
    simp only [run_renderArgs_cons, set, Bool.false_eq_true, if_false, hfirst, hr]
  | reference kind =>
    have hrun := result_reference_eq_error_iff.1 hr
    simp only [result, Piece.run, run_renderItems_reference kind, hrun]
  | moreItems kind first =>
    have hfirst := run_renderReference_of_piece first.run
    simp only [result, Piece.run] at hr ⊢
    simp only [run_renderItems_reference kind, hfirst, hr]
  | moreLiterals kind =>
    simp only [result, Piece.run] at hr ⊢
    simp only [run_renderItems_literal kind, hr]
  | call name get inline new =>
    rw [result_reference_eq_error_iff]
    simp only [result, Piece.run] at hr
    simp only [run_renderReference, name, get, inline, if_neg new, hr]

lemma error_of_reaches (h : Relation.ReflTransGen (Starts d) r r')
    (hr : r'.result d = .error fault) : r.result d = .error fault := by
  induction h with
  | refl => exact hr
  | tail _ hstart ih => exact ih (error_of_starts hstart hr)

/-- A run of arguments comes to the later ones when the earlier ones are done. -/
lemma reaches_args {trail : List NodeId} {owner : Entity} {before rest : List Argument}
    {s s₁ : Scope} {texts : List String} (h : Renders d trail owner (.args before) s texts s₁) :
    Relation.ReflTransGen (Starts d) ⟨trail, owner, .args (before ++ rest), s⟩
      ⟨trail, owner, .args rest, s₁⟩ := by
  induction before generalizing s texts with
  | nil =>
    cases h
    exact .refl
  | cons a before ih =>
    cases h with
    | arg set first others => exact .head (.args set first) (ih others)

end Run

/-! ## The runs of a compilation -/

/-- The compilation of the document comes to the run. -/
def Encounters (d : Document) (r : Run) : Prop :=
  validate d = .ok () ∧ ∃ w e s, Walk.Reached d w ∧ w.Begins d e s ∧
    Relation.ReflTransGen (Run.Starts d) ⟨[], e, .args e.args, s⟩ r

namespace Encounters

variable {r r' : Run} {fault : Fault}

lemma reaches (h : Encounters d r) (hr : Relation.ReflTransGen (Run.Starts d) r r') :
    Encounters d r' := by
  obtain ⟨hvalid, w, e, s, hw, hb, hstart⟩ := h
  exact ⟨hvalid, w, e, s, hw, hb, hstart.trans hr⟩

/-- **Failures stop the compilation.**  A compilation fails with the fault of any run that it
comes to. -/
theorem compile_eq_error (h : Encounters d r) (hr : r.result d = .error fault) :
    compile d = .error fault := by
  obtain ⟨hvalid, w, e, s, hw, hb, hstart⟩ := h
  have hrun : (renderArgs d [] e e.args).run s = .error fault := Run.error_of_reaches hstart hr
  exact compile_of_next_error hvalid hw (hb.next_eq_error hrun)

end Encounters

end NetDiagram.Flow
