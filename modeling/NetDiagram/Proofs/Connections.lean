import NetDiagram.Proofs.Emission
import NetDiagram.Proofs.Findings

/-!
# Declared and undeclared connections

A connection is declared at both ends, by the outputs of its source and by the inputs, or the
roles, of its target.  A target that does not declare the source refuses the connection, with one
exception: a layer that already has a statement does not look at its inputs again, and a connection
that comes too late is passed over (`Overtaken`).  Whether an undeclared connection is noticed
therefore depends on the order of the walk.

This file shows that there is no other exception.  In a compilation every connection of a written
layer is followed, and it is declared or overtaken; and an undeclared connection that is followed
and not overtaken stops the compilation.
-/

namespace NetDiagram.Flow

/-- At some point of the compilation the connection from `p` to `n` is the next one to be
followed, and the draft is `t`. -/
def Follows (d : Document) (p : Layer) (n : NodeId) (t : Draft) : Prop :=
  ∃ entrances rest, Walk.Reached d ⟨entrances, (p, n) :: rest, t⟩

/-- The id names a layer that takes part in the flow and already has a statement. -/
def Overtaken (d : Document) (t : Draft) (n : NodeId) : Prop :=
  ∃ l, d.get? n = some (.layer l) ∧ l.mode ≠ .ca ∧ n ∈ t.emitted

namespace Walk

variable {d : Document} {w w' : Walk} {t : Draft} {p : Layer} {n : NodeId}

/-! ## Connections that are followed -/

lemma Coherent.declares {e : Entity} {answer : Arrival} {ledger : Ledger} (h : w.Coherent d)
    (hget : d.get? n = some e)
    (harrive : (w.draft.ledger.register n e.roles).arrive n p.id = (answer, ledger))
    (hne : answer ≠ .undeclared) : d.Declares n p.id := by
  rw [← Document.roles_of_get? hget] at harrive
  rw [Document.declares_iff]
  by_contra hnot
  have hundeclared := (Ledger.arrive_eq_undeclared_iff (h.tracks n) p.id).2 hnot
  rw [harrive] at hundeclared
  exact hne hundeclared

/-- A connection that is followed without a fault is declared or overtaken. -/
lemma Step.declares_or_overtaken {entrances : List Layer} {rest : List (Layer × NodeId)}
    (hs : Step d ⟨entrances, (p, n) :: rest, t⟩ w')
    (hc : Walk.Coherent d ⟨entrances, (p, n) :: rest, t⟩) :
    d.Declares n p.id ∨ Overtaken d t n := by
  cases hs with
  | again hget hmode hold => exact Or.inr ⟨_, hget, hmode, hold⟩
  | single hget _ _ hinput => exact Or.inl (Or.inl ⟨_, hget, by simp [hinput, Inputs.ids]⟩)
  | pending hget harrive => exact Or.inl (hc.declares hget harrive (by simp))
  | joinLayer hget _ _ _ harrive _ => exact Or.inl (hc.declares hget harrive (by simp))
  | joinModel hget harrive _ => exact Or.inl (hc.declares hget harrive (by simp))

/-- A step takes the first connection, if there is one, and puts the connections of what it writes
before the others. -/
lemma Step.links_emitted (hs : Step d w w') (hc : w.Coherent d) :
    (w'.links = w.links.tail ∧ w'.draft.emitted = w.draft.emitted) ∨
      ∃ id e, d.get? id = some e ∧ w'.links = entityConnections e ++ w.links.tail ∧
        w'.draft.emitted = w.draft.emitted ++ [id] := by
  cases hs with
  | skip _ => exact Or.inl ⟨rfl, rfl⟩
  | again _ _ _ => exact Or.inl ⟨rfl, rfl⟩
  | pending _ _ => exact Or.inl ⟨rfl, rfl⟩
  | @enter l entrances t t' _ _ hwrite =>
    obtain ⟨texts, s, -, rfl⟩ := Draft.renders_of_writeLayer hwrite
    have hget := (Document.mem_entrances_iff.1 (hc.entrance_mem l List.mem_cons_self)).1
    exact Or.inr ⟨l.id, _, hget, (List.append_nil _).symm, rfl⟩
  | single hget _ _ _ hwrite =>
    obtain ⟨texts, s, -, rfl⟩ := Draft.renders_of_writeLayer hwrite
    exact Or.inr ⟨_, _, hget, rfl, rfl⟩
  | joinLayer hget _ _ _ _ hwrite =>
    obtain ⟨texts, s, -, rfl⟩ := Draft.renders_of_writeLayer hwrite
    exact Or.inr ⟨_, _, hget, rfl, rfl⟩
  | joinModel hget _ hwrite =>
    obtain ⟨texts, s, -, rfl⟩ := Draft.renders_of_writeModel hwrite
    exact Or.inr ⟨_, _, hget, rfl, rfl⟩

/-- Each connection of a written layer is to be followed, or was followed and was declared or
overtaken then. -/
def Settles (d : Document) (w : Walk) : Prop :=
  ∀ p n, d.get? p.id = some (.layer p) → p.id ∈ w.draft.emitted → n ∈ p.output →
    (p, n) ∈ w.links ∨ ∃ t, Follows d p n t ∧ (d.Declares n p.id ∨ Overtaken d t n)

lemma Step.settles (hs : Step d w w') (hreached : Reached d w) (h : w.Settles d) :
    w'.Settles d := by
  have hc := hreached.coherent
  -- A connection that is no longer to be followed was the first one.
  have htail : ∀ {p n}, (p, n) ∈ w.links → (p, n) ∈ w.links.tail ∨
      ∃ t, Follows d p n t ∧ (d.Declares n p.id ∨ Overtaken d t n) := by
    intro p n hmem
    obtain ⟨entrances, links, t⟩ := w
    cases links with
    | nil => simp at hmem
    | cons link rest =>
      rcases List.mem_cons.1 hmem with rfl | hrest
      · exact Or.inr ⟨t, ⟨entrances, rest, hreached⟩, hs.declares_or_overtaken hc⟩
      · exact Or.inl hrest
  intro p n hget hmem hn
  rcases hs.links_emitted hc with ⟨hlinks, hemitted⟩ | ⟨id, e, he, hlinks, hemitted⟩
  · rw [hemitted] at hmem
    rw [hlinks]
    exact (h p n hget hmem hn).elim htail Or.inr
  · rw [hemitted] at hmem
    rw [hlinks]
    rcases List.mem_append.1 hmem with hold | hnew
    · rcases (h p n hget hold hn).elim htail Or.inr with hrest | hdone
      · exact Or.inl (List.mem_append_right _ hrest)
      · exact Or.inr hdone
    · rw [List.mem_singleton.1 hnew, he, Option.some.injEq] at hget
      rw [hget]
      exact Or.inl (List.mem_append_left _ (List.mem_map_of_mem hn))

lemma Reached.settles (h : Reached d w) : w.Settles d :=
  h.induction (P := Settles d) (fun p n _ hmem => by simp [Walk.start] at hmem)
    fun _ _ hreached hs hw => hs.settles hreached hw

/-! ## Connections that are refused -/

/-- The fault of a connection that is refused.  An inline layer is found before its inputs are
looked at, and so is a model that does not say what its roles are. -/
inductive Refuses (d : Document) (p : Layer) (n : NodeId) : Fault → Prop
  | badConnection {fault : Fault} (code : fault.diagnostic.code = some .badConnection) :
      Refuses d p n fault
  | inline {l : Layer} (get : d.get? n = some (.layer l)) (mode : l.mode = .ca) :
      Refuses d p n (.inlineInFlow (some p) l)
  | unset {m : Model} {name : String} (get : d.get? n = some (.model m))
      (role : Draft.roleIds m name = .error (.missingRole m name)) :
      Refuses d p n (.missingRole m name)

lemma visit_of_overtaken (h : Overtaken d t n) : visit d t p n = .ok ([], t) := by
  obtain ⟨l, hget, hmode, hmem⟩ := h
  have hid : l.id = n := Document.id_of_get? hget
  simp [visit, hget, hmode, Draft.reachLayer, hid, hmem]

lemma reachLayer_of_undeclared {l : Layer} (hc : ∀ n, t.ledger.TracksAt n (d.roles n))
    (hget : d.get? l.id = some (.layer l)) (hnew : l.id ∉ t.emitted)
    (hnot : p.id ∉ l.input.ids) :
    Draft.reachLayer d t p l = .error (.notAnInput p l) := by
  unfold Draft.reachLayer
  rw [if_neg hnew]
  cases hinput : l.input with
  | none => rfl
  | single id =>
    have hne : id ≠ p.id := by
      rintro rfl
      simp [hinput, Inputs.ids] at hnot
    simp [hne]
  | many ids =>
    have htracks : t.ledger.TracksAt l.id [ids] := by
      have h := hc l.id
      rwa [Document.roles_of_get? hget, Entity.roles, hinput, Inputs.ids] at h
    have hundeclared := (Ledger.arrive_eq_undeclared_iff htracks p.id).2
      (by simpa [hinput, Inputs.ids] using hnot)
    dsimp only
    split
    · rename_i harrive
      simp [harrive] at hundeclared
    · rename_i harrive
      simp [harrive] at hundeclared
    · rfl

lemma reachModel_of_undeclared {m : Model} (hc : ∀ n, t.ledger.TracksAt n (d.roles n))
    (hget : d.get? m.id = some (.model m)) (hnot : p.id ∉ m.members) :
    ∃ fault, Draft.reachModel d t p m = .error fault ∧ Refuses d p m.id fault := by
  unfold Draft.reachModel
  -- The roles are read before the ledger is asked, so a role without a value comes first.
  rcases roleIds_cases m Model.inputsName with hin | hin
  · exact ⟨_, by rw [hin], .unset hget hin⟩
  · rcases roleIds_cases m Model.outputsName with hout | hout
    · exact ⟨_, by rw [hin, hout], .unset hget hout⟩
    · have htracks := hc m.id
      rw [Document.roles_of_get? hget] at htracks
      have hundeclared := (Ledger.arrive_eq_undeclared_iff htracks p.id).2
        (by rwa [Entity.flatten_roles_model])
      rw [Entity.roles] at hundeclared
      refine ⟨.notARole p m, ?_, .badConnection (by simp [Fault.code])⟩
      rw [hin, hout]
      dsimp only
      split
      · rename_i harrive
        simp [harrive] at hundeclared
      · rename_i harrive
        simp [harrive] at hundeclared
      · rfl

/-- An undeclared connection that is not overtaken is refused. -/
lemma visit_of_undeclared (hc : ∀ n, t.ledger.TracksAt n (d.roles n))
    (hnot : ¬ d.Declares n p.id) (hlate : ¬ Overtaken d t n) :
    ∃ fault, visit d t p n = .error fault ∧ Refuses d p n fault := by
  cases hget : d.get? n with
  | none =>
    exact ⟨.danglingLink p n, by simp [visit, hget], .badConnection (by simp [Fault.code])⟩
  | some e =>
    have hid := Document.id_of_get? hget
    cases e with
    | layer l =>
      by_cases hmode : l.mode = .ca
      · exact ⟨.inlineInFlow (some p) l, by simp [visit, hget, hmode], .inline hget hmode⟩
      · obtain rfl : l.id = n := hid
        -- The layer has no statement, for otherwise the connection would be overtaken.
        have hnew : l.id ∉ t.emitted := fun hmem => hlate ⟨l, hget, hmode, hmem⟩
        have hreach := reachLayer_of_undeclared hc hget hnew
          fun hmem => hnot (Or.inl ⟨l, hget, hmem⟩)
        exact ⟨.notAnInput p l, by simp [visit, hget, hmode, hreach],
          .badConnection (by simp [Fault.code])⟩
    | model m =>
      obtain rfl : m.id = n := hid
      obtain ⟨fault, hreach, hrefuses⟩ :=
        reachModel_of_undeclared hc hget fun hmem => hnot (Or.inr ⟨m, hget, hmem⟩)
      exact ⟨fault, by simp [visit, hget, hreach], hrefuses⟩
    | unit u =>
      exact ⟨.linkToValue p (.unit u), by simp [visit, hget],
        .badConnection (by simp [Fault.code])⟩
    | placeholder x =>
      exact ⟨.linkToValue p (.placeholder x), by simp [visit, hget],
        .badConnection (by simp [Fault.code])⟩
    | note x =>
      exact ⟨.linkToValue p (.note x), by simp [visit, hget],
        .badConnection (by simp [Fault.code])⟩

end Walk

/-! ## Compilations -/

/-- **Declared, or too late.**  In a compilation every connection of a written layer is followed,
and it is declared or its target already has a statement.  An undeclared connection that is
followed is passed over if its target is a layer that already has a statement, and stops the
compilation of a checked document otherwise. -/
theorem declared_or_overtaken (d : Document) :
    (∀ c, compile d = .ok c →
      ∃ nodes, Emission d nodes c ∧ ∀ p, .layer p ∈ nodes → ∀ n ∈ p.output,
        ∃ t, Follows d p n t ∧ (d.Declares n p.id ∨ Overtaken d t n)) ∧
    ∀ p n t, Follows d p n t → ¬ d.Declares n p.id →
      (Overtaken d t n → Walk.visit d t p n = .ok ([], t)) ∧
      (¬ Overtaken d t n → validate d = .ok () →
        ∃ fault, compile d = .error fault ∧ Walk.Refuses d p n fault) := by
  refine ⟨fun c hc => ?_,
    fun p n t hfollows hnot => ⟨Walk.visit_of_overtaken, fun hlate hvalid => ?_⟩⟩
  · obtain ⟨t, hreached, rfl⟩ := exists_reached_of_compile hc
    obtain ⟨nodes, hnodes⟩ := hreached.transcribes
    refine ⟨nodes, hnodes.emission hreached.joined.nodup, fun p hp n hn => ?_⟩
    have hget := hnodes.transcript.get?_of_mem hp
    have hsettled := hreached.settles p n hget ((hnodes.mem_iff hget).1 hp) hn
    exact hsettled.resolve_left (by simp)
  · obtain ⟨entrances, rest, hreached⟩ := hfollows
    obtain ⟨fault, hvisit, hrefuses⟩ :=
      Walk.visit_of_undeclared hreached.coherent.tracks hnot hlate
    exact ⟨fault, compile_of_visit_error hvalid hreached hvisit, hrefuses⟩

/-- An entrance that declares no input. -/
def plainEntrance : Layer where
  id := .ofText "b"
  var := "y"
  className := "Input"
  entrance := true

/-- An entrance that is connected to the plain one. -/
def linkedEntrance : Layer where
  id := .ofText "a"
  var := "x"
  className := "Input"
  entrance := true
  output := [.ofText "b"]

/-- A model that no layer is connected to. -/
def idleModel : Model where
  id := .ofText "m"
  var := "model"
  args := [⟨"inputs", "a", .id⟩, ⟨"outputs", "b", .id⟩]

/-- The target of the connection comes first. -/
def lateConnection : Document where
  entities := [.layer plainEntrance, .layer linkedEntrance, .model idleModel]
  nodup := by decide +kernel

/-- The source of the connection comes first. -/
def earlyConnection : Document where
  entities := [.layer linkedEntrance, .layer plainEntrance, .model idleModel]
  nodup := by decide +kernel

/-- The compilation of `lateConnection`. -/
def lateResult : Compilation where
  statements := [⟨"y", "layers", "Input", "", none⟩, ⟨"x", "layers", "Input", "", none⟩]
  endpoints := []
  placeholders := []
  sources := ["layers"]
  notices := [.unreleasedModel idleModel false]

lemma compile_lateConnection : compile lateConnection = .ok lateResult :=
  compile_of_evaluate (k := 1) (n := 3) (by cbv) (by rfl)

lemma not_declares_plainEntrance {d : Document}
    (hget : d.get? plainEntrance.id = some (.layer plainEntrance)) (id : NodeId) :
    ¬ d.Declares plainEntrance.id id := by
  rw [Document.declares_iff, Document.roles_of_get? hget, Entity.flatten_roles_layer]
  simp [plainEntrance, Inputs.ids]

/-- The draft of `earlyConnection` after the first entrance. -/
def earlyDraft : Draft where
  scope := (({} : Scope).touch layerSource).bind linkedEntrance.id linkedEntrance.var
  statements := [⟨"x", "layers", "Input", "", none⟩]
  emitted := [linkedEntrance.id]

lemma reached_earlyConnection :
    Walk.Reached earlyConnection
      ⟨[plainEntrance], [(linkedEntrance, plainEntrance.id)], earlyDraft⟩ :=
  Walk.Reached.start.evaluate (k := 1) (n := 1) (by rfl)

/-- **An undeclared connection is accepted.**  `lateConnection` is compiled, although a written
layer is connected to a layer that does not declare it.  With the same entities in another order
the connection is refused. -/
theorem undeclared_connection_accepted :
    (∃ nodes, compile lateConnection = .ok lateResult ∧
      Emission lateConnection nodes lateResult ∧ .layer linkedEntrance ∈ nodes ∧
      plainEntrance.id ∈ linkedEntrance.output ∧
      ¬ lateConnection.Declares plainEntrance.id linkedEntrance.id) ∧
    lateConnection.entities.Perm earlyConnection.entities ∧
    compile earlyConnection = .error (.notAnInput linkedEntrance plainEntrance) := by
  refine ⟨?_, List.Perm.swap _ _ _, ?_⟩
  · obtain ⟨t, hreached, hresult⟩ := exists_reached_of_compile compile_lateConnection
    obtain ⟨nodes, hnodes⟩ := hreached.transcribes
    have hentrance : linkedEntrance ∈ lateConnection.entrances :=
      Document.mem_entrances_iff.2 ⟨by cbv, rfl⟩
    refine ⟨nodes, compile_lateConnection, ?_, hnodes.entrance_mem hreached hentrance,
      List.mem_singleton.2 rfl, not_declares_plainEntrance (by cbv) _⟩
    rw [hresult]
    exact hnodes.emission hreached.joined.nodup
  · exact compile_of_visit_error (by cbv) reached_earlyConnection (by cbv)

/-- Both halves of the theorem at the two documents. -/
theorem declared_or_overtaken_entrances :
    (∃ nodes, Emission lateConnection nodes lateResult ∧
      ∀ p, .layer p ∈ nodes → ∀ n ∈ p.output,
        ∃ t, Follows lateConnection p n t ∧
          (lateConnection.Declares n p.id ∨ Overtaken lateConnection t n)) ∧
    ∃ fault, compile earlyConnection = .error fault ∧
      Walk.Refuses earlyConnection linkedEntrance plainEntrance.id fault := by
  constructor
  · exact (declared_or_overtaken lateConnection).1 lateResult compile_lateConnection
  · have hlate : ¬ Overtaken earlyConnection earlyDraft plainEntrance.id := by
      rintro ⟨l, -, -, hmem⟩
      exact absurd hmem (by decide +kernel)
    have hnot : ¬ earlyConnection.Declares plainEntrance.id linkedEntrance.id :=
      not_declares_plainEntrance (by cbv) _
    exact ((declared_or_overtaken earlyConnection).2 linkedEntrance plainEntrance.id earlyDraft
      ⟨_, _, reached_earlyConnection⟩ hnot).2 hlate (by cbv)

end NetDiagram.Flow
