import NetDiagram.Proofs.Findings
import NetDiagram.Proofs.Transparency

/-!
# The two readings of a role

A model lists its layers as inputs and as outputs, and each list is the text of an argument of that
name.  The text is read twice.  The ledger waits for the ids that it lists: a blank item and `null`
stand for no id, and the class of the argument does not matter.  Rendering looks at the class, and
renders every item.

The readings agree if the argument is one of references and every item names an id
(`Argument.AllIds`); then the model is written with the variables of the layers that it was joined
on.  Otherwise they differ: a blank item or `null` is looked up as an id, and the items of an
argument of another class are written as they stand.

## Main statements

* `Walk.Reached.named`: a layer that has a statement is known by its variable.
* `Renders.items_of_named`: references to such layers are rendered as their variables.
* `exists_run_items_eq_error`: an item that names no id cannot be rendered.
-/

namespace NetDiagram

/-! ## The arguments of the roles -/

/-- Every item of the value names an id. -/
def Argument.AllIds (a : Argument) : Prop :=
  ∀ item ∈ a.items.map Text.trim, item ≠ "" ∧ item ≠ "null"

lemma Argument.mem_idList {a : Argument} {item : String} (hmem : item ∈ a.items.map Text.trim)
    (hitem : item ≠ "" ∧ item ≠ "null") : NodeId.ofText item ∈ a.idList := by
  unfold idList parseIdList
  exact List.mem_filterMap.2 ⟨item, hmem, by simp [hitem]⟩

lemma Argument.AllIds.idList_eq {a : Argument} (h : a.AllIds) :
    a.idList = (a.items.map Text.trim).map NodeId.ofText := by
  calc
    a.idList = (a.items.map Text.trim).filterMap (some ∘ NodeId.ofText) := by
      refine List.filterMap_congr fun item hmem => ?_
      simp [h item hmem]
    _ = (a.items.map Text.trim).map NodeId.ofText := by rw [List.filterMap_eq_map]

/-- The argument is the first one of its name; the others stand before and after it. -/
structure Model.Lists (m : Model) (name : String) (before : List Argument) (a : Argument)
    (after : List Argument) : Prop where
  args : m.args = before ++ a :: after
  name_eq : a.name = name
  first : ∀ b ∈ before, b.name ≠ name

lemma Model.exists_lists {m : Model} {name : String} {a : Argument} (h : m.arg? name = some a) :
    ∃ before after, m.Lists name before a after := by
  unfold Model.arg? at h
  obtain ⟨hname, before, after, hargs, hfirst⟩ := List.find?_eq_some_iff_append.1 h
  exact ⟨before, after, hargs, by simpa using hname, fun b hb => by simpa using hfirst b hb⟩

lemma Model.Lists.arg?_eq {m : Model} {name : String} {before after : List Argument}
    {a : Argument} (h : m.Lists name before a after) : m.arg? name = some a := by
  refine List.find?_eq_some_iff_append.2 ⟨by simp [h.name_eq], before, after, h.args, ?_⟩
  intro b hb
  simpa using h.first b hb

namespace Flow

variable {d : Document} {trail : List NodeId} {owner : Entity} {s s' : Scope}

lemma exists_arg_of_roleIds {m : Model} {name : String} {ids : List NodeId}
    (h : Draft.roleIds m name = .ok ids) :
    ∃ a, m.arg? name = some a ∧ a.isUnset = false ∧ a.idList = ids := by
  unfold Draft.roleIds at h
  split at h
  · rename_i a ha
    split at h
    · simp at h
    · rename_i hset
      exact ⟨a, ha, by simpa using hset, by simpa using h⟩
  · simp at h

/-! ## Layers that have statements -/

/-- An expression stays as it is. -/
lemma Renders.name?_eq {piece : Piece} {texts : List String}
    (h : Renders d trail owner piece s texts s') {x : NodeId} {text : String}
    (hx : s.name? x = some text) : s'.name? x = some text := by
  induction h with
  | noArgs => exact hx
  | arg _ _ _ ihfirst ihothers => exact ihothers (ihfirst hx)
  | noItems => exact hx
  | literal _ _ ih => exact ih hx
  | item _ _ _ ihfirst ihothers => exact ihothers (ihfirst hx)
  | known _ => exact hx
  -- Only what has no expression gets one, so the two ids differ.
  | placeholder hname _ =>
    rw [Scope.name?_bind, if_neg, Scope.name?_require, hx]
    rintro rfl
    exact absurd (hname.symm.trans hx) (by simp)
  | forward _ _ _ => exact hx
  | call hname _ _ _ _ ih =>
    rw [Scope.name?_inline, Scope.name?_bind, if_neg, ih hx]
    rintro rfl
    exact absurd (hname.symm.trans hx) (by simp)

/-- The layers of the draft have variables, and are known by them. -/
def Draft.Named (d : Document) (t : Draft) : Prop :=
  ∀ l : Layer, d.get? l.id = some (.layer l) → l.id ∈ t.emitted →
    l.mode ≠ .ca ∧ t.scope.name? l.id = some l.var

/-- **Layers are known by their variables.** -/
theorem Walk.Reached.named {w : Walk} (h : Walk.Reached d w) : w.draft.Named d := by
  refine h.induction_draft (P := Draft.Named d) (fun l _ hmem => by simp at hmem) ?_
  intro t t' hstep ht
  cases hstep with
  | idle ledger => exact ht
  | @layer l _ s _ _ hget hmode hr =>
    intro p hp hmem
    -- The layer that is written gets its name; the others keep theirs while it is rendered.
    by_cases hid : p.id = l.id
    · obtain rfl : p = l := by
        rw [hid, hget] at hp
        exact Entity.layer.inj (Option.some.inj hp.symm)
      exact ⟨hmode, by rw [Scope.name?_bind, if_pos rfl]⟩
    · have hold : p.id ∈ t.emitted := by simpa [hid] using hmem
      obtain ⟨hpmode, hname⟩ := ht p hp hold
      exact ⟨hpmode, by rw [Scope.name?_bind, if_neg hid, hr.name?_eq hname]⟩
  | @model m _ s _ hget _ hr =>
    intro p hp hmem
    have hid : p.id ≠ m.id := fun hid => absurd (hp.symm.trans (hid ▸ hget)) (by simp)
    have hold : p.id ∈ t.emitted := by simpa [hid] using hmem
    obtain ⟨hpmode, hname⟩ := ht p hp hold
    exact ⟨hpmode, hr.name?_eq hname⟩

/-! ## The items of an argument -/

section Items

variable {a : Argument}

lemma Renders.items_of_named (hk : a.kind = .id) {items : List String} {ps : List Layer}
    (hids : items.map NodeId.ofText = ps.map (·.id))
    (hnamed : ∀ p ∈ ps, s.name? p.id = some p.var) :
    Renders d trail owner (.items a items) s (ps.map (·.var)) s := by
  induction items generalizing ps with
  | nil =>
    obtain rfl : ps = [] := by simpa using hids.symm
    exact .noItems
  | cons item items ih =>
    match ps, hids, hnamed with
    | p :: ps, hids, hnamed =>
      rw [List.map_cons, List.map_cons, List.cons.injEq] at hids
      rw [List.forall_mem_cons] at hnamed
      have hfirst : Renders d trail owner (.reference a (.ofText item)) s [p.var] s :=
        .known (hids.1 ▸ hnamed.1)
      exact .item hk hfirst (ih hids.2 hnamed.2)

lemma Renders.items_literal (hk : a.kind ≠ .id) (items : List String) :
    Renders d trail owner (.items a items) s (items.map (literalText a.kind)) s := by
  induction items with
  | nil => exact .noItems
  | cons item items ih => exact .literal hk ih

lemma Renders.single (hset : a.isUnset = false) {values : List String}
    (h : Renders d trail owner (.items a (a.items.map Text.trim)) s values s) :
    (renderArgs d trail owner [a]).run s = .ok ([a.name ++ "=" ++ bracket values], s) :=
  (Renders.arg hset h .noArgs).run

lemma Scope.Spelled.name?_eq_none (h : s.Spelled d) {id : NodeId} (hget : d.get? id = none) :
    s.name? id = none := by
  cases hname : s.name? id with
  | none => rfl
  | some text =>
    have hspells := h id text hname ⟨"", "", .id⟩
    cases hspells <;> simp_all

/-- **An item that names no id cannot be rendered.**  The items before it refer to what is known,
so that rendering comes to it. -/
lemma exists_run_items_eq_error (hk : a.kind = .id) (hs : s.Spelled d)
    (hblank : d.get? (.ofText "") = none) (hnull : d.get? (.ofText "null") = none)
    {items : List String} (hbad : ¬ ∀ item ∈ items, item ≠ "" ∧ item ≠ "null")
    (hknown : ∀ item ∈ items, item ≠ "" ∧ item ≠ "null" →
      ∃ text, s.name? (.ofText item) = some text) :
    ∃ id, (renderItems d trail owner a items).run s = .error (.danglingReference owner a id) := by
  induction items with
  | nil => simp at hbad
  | cons item items ih =>
    rw [List.forall_mem_cons] at hknown
    -- The items before the first that names no id are rendered as known layers.
    by_cases hitem : item ≠ "" ∧ item ≠ "null"
    · obtain ⟨text, hname⟩ := hknown.1 hitem
      obtain ⟨id, hrest⟩ := ih (fun hall => hbad (List.forall_mem_cons.2 ⟨hitem, hall⟩)) hknown.2
      exact ⟨id, by simp only [run_renderItems_reference hk, run_renderReference, hname, hrest]⟩
    · have hget : d.get? (.ofText item) = none := by
        by_cases hempty : item = ""
        · rwa [hempty]
        · have hitem' : item = "null" := by
            by_contra hne
            exact hitem ⟨hempty, hne⟩
          rwa [hitem']
      have hname : s.name? (.ofText item) = none := hs.name?_eq_none hget
      exact ⟨.ofText item, by
        simp only [run_renderItems_reference hk, run_renderReference, hname, hget]⟩

end Items

/-! ## Models that are joined -/

/-- The argument lists the given layers, and all of them have statements. -/
structure JoinedOn (d : Document) (t : Draft) (a : Argument) (ps : List Layer) : Prop where
  set : a.isUnset = false
  ids : a.idList = ps.map (·.id)
  emitted : ∀ p ∈ ps, d.get? p.id = some (.layer p) ∧ p.id ∈ t.emitted

/-- When the statement of a model begins, all that it lists in a role has a statement. -/
lemma Walk.Reached.exists_joinedOn {w : Walk} {m : Model} {name : String}
    (h : Walk.Reached d w) (hb : w.Begins d (.model m) s)
    (hname : name = Model.inputsName ∨ name = Model.outputsName) :
    ∃ before a after ps, m.Lists name before a after ∧ JoinedOn d w.draft a ps := by
  obtain ⟨nodes, hnodes⟩ := h.transcribes
  have hc := h.coherent
  cases hb with
  | @model p m inputs outputs _ _ t _ hget hinputs houtputs harrive =>
    have hroles : (Entity.model m).roles = [inputs, outputs] := by
      simp [Entity.roles, listed_of_roleIds hinputs, listed_of_roleIds houtputs]
    rw [← hroles] at harrive
    -- The statement begins because the join is complete, so all of both roles is among the nodes.
    have hall := (hc.predecessors hnodes hget harrive).2
    obtain ⟨ids, hids, hsub⟩ :
        ∃ ids, Draft.roleIds m name = .ok ids ∧ ids ⊆ (Entity.model m).roles.flatten := by
      rcases hname with rfl | rfl
      · exact ⟨inputs, hinputs, by simp [hroles]⟩
      · exact ⟨outputs, houtputs, by simp [hroles]⟩
    obtain ⟨a, harg, hset, rfl⟩ := exists_arg_of_roleIds hids
    obtain ⟨before, after, hlists⟩ := Model.exists_lists harg
    have hlayers : ∀ id ∈ a.idList, ∃ q, d.get? id = some (.layer q) ∧ q.id ∈ t.emitted := by
      intro id hid
      obtain ⟨q, hq, hmem, -⟩ := hall id (hsub hid)
      obtain rfl : q.id = id := Document.id_of_get? hq
      exact ⟨q, hq, (hnodes.mem_iff hq).1 hmem⟩
    obtain ⟨ps, hps, hemitted⟩ := exists_predecessors hlayers
    exact ⟨before, a, after, ps, hlists, hset, hps.symm, hemitted⟩

/-- How the argument of a role is rendered, in the scope in which its turn comes, if the model is
joined on the given layers. -/
structure RoleRendered (d : Document) (m : Model) (a : Argument) (ps : List Layer) (s : Scope) :
    Prop where
  /-- References that all name ids are rendered as the variables of the layers. -/
  agrees : a.kind = .id → a.AllIds → ∃ value, ValueText (ps.map (·.var)) value ∧
    (renderArgs d [] (.model m) [a]).run s = .ok ([a.name ++ "=" ++ value], s)
  /-- An item that names no id is looked up nevertheless, which stops the compilation. -/
  refused : a.kind = .id → ¬ a.AllIds → d.get? (.ofText "") = none →
    d.get? (.ofText "null") = none → ∃ id, compile d = .error (.danglingReference (.model m) a id)
  /-- Items of another class are not references, whatever they name. -/
  literal : a.kind ≠ .id → ∃ value,
    ValueText ((a.items.map Text.trim).map (literalText a.kind)) value ∧
      (renderArgs d [] (.model m) [a]).run s = .ok ([a.name ++ "=" ++ value], s)

/-- The layers of a role are known when its turn comes. -/
lemma JoinedOn.name?_eq {w : Walk} {a : Argument} {ps : List Layer} {source : String}
    {before : List Argument} {texts : List String} (h : JoinedOn d w.draft a ps)
    (hw : Walk.Reached d w)
    (hr : Renders d trail owner (.args before) (w.draft.scope.touch source) texts s) :
    ∀ p ∈ ps, s.name? p.id = some p.var := by
  intro p hp
  obtain ⟨hget, hmem⟩ := h.emitted p hp
  have hname : (w.draft.scope.touch source).name? p.id = some p.var := (hw.named p hget hmem).2
  exact hr.name?_eq hname

lemma Walk.Reached.roleRendered {w : Walk} {m : Model} {name : String}
    {before after : List Argument} {a : Argument} {ps : List Layer} {texts : List String}
    {s₁ : Scope} (hvalid : validate d = .ok ()) (h : Walk.Reached d w)
    (hb : w.Begins d (.model m) s) (hlists : m.Lists name before a after)
    (hjoined : JoinedOn d w.draft a ps)
    (hr : Renders d [] (.model m) (.args before) s texts s₁) : RoleRendered d m a ps s₁ := by
  have hencounters : Encounters d ⟨[], .model m, .args (a :: after), s₁⟩ := by
    refine ⟨hvalid, w, .model m, s, h, hb, ?_⟩
    simp only [Entity.args, hlists.args]
    exact Run.reaches_args hr
  have hspelled : s₁.Spelled d := hencounters.reachable.spelled
  have hnamed : ∀ p ∈ ps, s₁.name? p.id = some p.var := by
    obtain ⟨source, rfl⟩ := hb.exists_touch
    exact hjoined.name?_eq h hr
  refine ⟨fun hk hall => ?_, fun hk hbad hblank hnull => ?_, fun hk => ?_⟩
  · have hids := hall.idList_eq.symm.trans hjoined.ids
    exact ⟨_, valueText_iff.2 rfl, Renders.single hjoined.set (.items_of_named hk hids hnamed)⟩
  -- The list of ids leaves out what names no id, so it has all the others.
  · have hknown : ∀ item ∈ a.items.map Text.trim, item ≠ "" ∧ item ≠ "null" →
        ∃ text, s₁.name? (.ofText item) = some text := by
      intro item hmem hitem
      have hlisted := Argument.mem_idList hmem hitem
      rw [hjoined.ids] at hlisted
      obtain ⟨p, hp, hid⟩ := List.mem_map.1 hlisted
      exact ⟨p.var, hid ▸ hnamed p hp⟩
    obtain ⟨id, hrun⟩ : ∃ id, (renderItems d [] (.model m) a (a.items.map Text.trim)).run s₁ =
        .error (.danglingReference (.model m) a id) :=
      exists_run_items_eq_error hk hspelled hblank hnull hbad hknown
    have hitems := hencounters.reaches (.single (.items hjoined.set))
    exact ⟨id, hitems.compile_eq_error hrun⟩
  · exact ⟨_, valueText_iff.2 rfl, Renders.single hjoined.set (.items_literal hk _)⟩

/-! ## Models that have statements -/

lemma Spells.length_args {args : List Argument} {texts : List String}
    (h : Spells d (.args args) texts) : texts.length = args.length := by
  induction args generalizing texts with
  | nil =>
    cases h
    rfl
  | cons a rest ih =>
    cases h with
    | arg _ _ _ others => simp [ih others]

lemma Spells.exists_split {before after : List Argument} {a : Argument} {texts : List String}
    (h : Spells d (.args (before ++ a :: after)) texts) :
    ∃ first values value last, texts = first ++ (a.name ++ "=" ++ value) :: last ∧
      first.length = before.length ∧ last.length = after.length ∧
      Spells d (.items a (a.items.map Text.trim)) values ∧ ValueText values value := by
  induction before generalizing texts with
  | nil =>
    cases h with
    | arg set first whole others =>
      exact ⟨[], _, _, _, rfl, rfl, others.length_args, first, whole⟩
  | cons b before ih =>
    cases h with
    | arg set first whole others =>
      obtain ⟨texts₁, values, value, last, rfl, hlength, hrest⟩ := ih others
      exact ⟨_ :: texts₁, values, value, last, rfl, by simp [hlength], hrest⟩

lemma Spells.exists_get?_of_mem {a : Argument} (hk : a.kind = .id) {items texts : List String}
    (h : Spells d (.items a items) texts) {item : String} (hitem : item ∈ items) :
    ∃ e, d.get? (.ofText item) = some e := by
  induction items generalizing texts with
  | nil => simp at hitem
  | cons x items ih =>
    cases h with
    | quoted kind => simp [hk] at kind
    | verbatim kind => simp [hk] at kind
    | item _ first others =>
      rcases List.mem_cons.1 hitem with rfl | hrest
      · cases first with
        | placeholder get => exact ⟨_, get⟩
        | unit get _ => exact ⟨_, get⟩
        | inline get _ _ => exact ⟨_, get⟩
        | named get _ => exact ⟨_, get⟩
      · exact ih others hrest

/-- How the argument of a role stands in the statement of the model, if it lists the given
layers. -/
structure RoleWritten (d : Document) (a : Argument) (ps : List Layer) (value : String) :
    Prop where
  /-- Only a document that uses a blank id, or `null`, can be compiled with an item that names no
  id among references. -/
  allIds : a.kind = .id → d.get? (.ofText "") = none → d.get? (.ofText "null") = none → a.AllIds
  agrees : a.kind = .id → a.AllIds → ValueText (ps.map (·.var)) value
  literal : a.kind ≠ .id → ValueText ((a.items.map Text.trim).map (literalText a.kind)) value

lemma Walk.Reached.roleWritten {w : Walk} {a : Argument} {ps : List Layer}
    {values : List String} {value : String} (h : Walk.Reached d w) (m : Model)
    (hids : a.idList = ps.map (·.id))
    (hps : ∀ p ∈ ps, d.get? p.id = some (.layer p) ∧ p.id ∈ w.draft.emitted)
    (hvalues : Spells d (.items a (a.items.map Text.trim)) values)
    (hvalue : ValueText values value) : RoleWritten d a ps value := by
  have hspelled := h.scope_reachable.spelled
  -- The scope of the draft knows the layers, so that rendering in it gives the spelling.
  have hunique : ∀ {values'}, Renders d [] (.model m) (.items a (a.items.map Text.trim))
      w.draft.scope values' w.draft.scope → ValueText values' value := by
    intro values' hr
    rwa [(hr.spells hspelled).1.unique hvalues]
  refine ⟨fun hk hblank hnull item hitem => ?_, fun hk hall => ?_, fun hk => ?_⟩
  · obtain ⟨e, hget⟩ := hvalues.exists_get?_of_mem hk hitem
    constructor
    · rintro rfl
      exact absurd (hblank.symm.trans hget) (by simp)
    · rintro rfl
      exact absurd (hnull.symm.trans hget) (by simp)
  · have hnamed : ∀ p ∈ ps, w.draft.scope.name? p.id = some p.var :=
      fun p hp => (h.named p (hps p hp).1 (hps p hp).2).2
    exact hunique (.items_of_named hk (hall.idList_eq.symm.trans hids) hnamed)
  · exact hunique (.items_literal hk _)

/-- A model that has a statement says what its roles are. -/
lemma Walk.Reached.roleIds_eq {w : Walk} (h : Walk.Reached d w) {m : Model}
    (hget : d.get? m.id = some (.model m)) (hmem : m.id ∈ w.draft.emitted) {name : String}
    (hname : name = Model.inputsName ∨ name = Model.outputsName) :
    Draft.roleIds m name = .ok (m.listed name) := by
  refine h.induction_draft (P := fun t => m.id ∈ t.emitted →
    Draft.roleIds m name = .ok (m.listed name)) (fun hmem => by simp at hmem) ?_ hmem
  intro t t' hstep ih hmem
  cases hstep with
  | idle ledger => exact ih hmem
  | @layer l _ _ _ _ hlayer _ _ =>
    have hid : m.id ≠ l.id := fun hid => absurd (hget.symm.trans (hid ▸ hlayer)) (by simp)
    exact ih (by simpa [hid] using hmem)
  | @model m' _ _ _ hmodel hset _ =>
    by_cases hid : m.id = m'.id
    · obtain rfl : m = m' := by
        rw [hid, hmodel] at hget
        exact Entity.model.inj (Option.some.inj hget.symm)
      exact hset name hname
    · exact ih (by simpa [hid] using hmem)

/-- In the statement of each model, each role is the text of an argument that lists layers which
stand before the model. -/
def RolesWritten (d : Document) (nodes : List Entity) (c : Compilation) : Prop :=
  ∀ (i : Nat) (m : Model) (st : Statement) (name : String), nodes[i]? = some (.model m) →
    c.statements[i]? = some st → name = Model.inputsName ∨ name = Model.outputsName →
      ∃ before a after ps, m.Lists name before a after ∧ a.idList = ps.map (·.id) ∧
        (∀ p ∈ ps, .layer p ∈ nodes.take i) ∧
        ∃ first value last,
          st.args = ", ".intercalate (first ++ (name ++ "=" ++ value) :: last) ∧
          first.length = before.length ∧ last.length = after.length ∧ RoleWritten d a ps value

lemma Emission.exists_layer_of_member {nodes : List Entity} {c : Compilation} {i : Nat} {m : Model}
    {st : Statement} {id : NodeId} (h : Emission d nodes c) (hm : nodes[i]? = some (.model m))
    (hst : c.statements[i]? = some st) (hid : id ∈ m.members) :
    ∃ q : Layer, q.id = id ∧ .layer q ∈ nodes.take i := by
  rcases h.statement i _ st hm hst with ⟨l, hl, -⟩ | ⟨m', hm', hstatement⟩
  · cases hl
  · cases hm'
    obtain ⟨q, hq, hqid, -⟩ := hstatement.members id hid
    exact ⟨q, hqid, hq⟩

lemma Walk.Reached.rolesWritten {w : Walk} {nodes : List Entity} (h : Walk.Reached d w)
    (hnodes : w.draft.Transcribes d nodes) : RolesWritten d nodes (w.draft.finish d) := by
  intro i m st name hm hst hname
  have hget := hnodes.transcript.get?_of_mem (List.mem_of_getElem? hm)
  have hids := h.roleIds_eq hget ((hnodes.mem_iff hget).1 (List.mem_of_getElem? hm)) hname
  obtain ⟨a, harg, -, hlist⟩ := exists_arg_of_roleIds hids
  obtain ⟨before, after, hlists⟩ := Model.exists_lists harg
  have hlayers : ∀ id ∈ a.idList,
      ∃ q, d.get? id = some (.layer q) ∧ .layer q ∈ nodes.take i := by
    intro id hid
    -- Both roles are joined on, whichever of them it is.
    have hmember : id ∈ m.members := by
      rw [hlist] at hid
      rcases hname with rfl | rfl
      · exact List.mem_append_left _ hid
      · exact List.mem_append_right _ hid
    obtain ⟨q, rfl, hq⟩ :=
      (hnodes.emission h.joined.nodup).exists_layer_of_member hm hst hmember
    exact ⟨q, hnodes.transcript.get?_of_mem (List.mem_of_mem_take hq), hq⟩
  obtain ⟨ps, hps, hbefore⟩ := exists_predecessors hlayers
  obtain ⟨texts, htexts, hargs⟩ := h.spellsArgs hnodes hm hst
  simp only [Entity.args, hlists.args] at htexts
  obtain ⟨first, values, value, last, rfl, hfirst, hlast, hvalues, hvalue⟩ := htexts.exists_split
  rw [hlists.name_eq] at hargs
  refine ⟨before, a, after, ps, hlists, hps.symm, fun p hp => (hbefore p hp).2, first, value,
    last, hargs, hfirst, hlast, h.roleWritten m hps.symm (fun p hp => ?_) hvalues hvalue⟩
  obtain ⟨hp', hmem⟩ := hbefore p hp
  exact ⟨hp', (hnodes.mem_iff hp').1 (List.mem_of_mem_take hmem)⟩

/-- **The readings of a role.**  Let a model be joined, so that its statement begins.  Each of its
roles is an argument that lists layers which have statements.  When its turn comes it is rendered
as their variables, if it is one of references and every item names an id; with another item the
compilation fails; and of another class it is rendered as it stands.

So in the statement of a model of a compilation each role is written as the variables of the layers
that it lists, bare if there is one and in brackets otherwise, except if it is not one of
references, or if the document uses a blank id or `null`. -/
theorem role_readings (d : Document) :
    (validate d = .ok () → ∀ (w : Walk) (m : Model) (s : Scope) (name : String),
      Walk.Reached d w → w.Begins d (.model m) s →
      name = Model.inputsName ∨ name = Model.outputsName →
        ∃ before a after ps, m.Lists name before a after ∧ JoinedOn d w.draft a ps ∧
          ∀ (texts : List String) (s₁ : Scope),
            (renderArgs d [] (.model m) before).run s = .ok (texts, s₁) →
              RoleRendered d m a ps s₁) ∧
    ∀ c, compile d = .ok c → ∃ nodes, Emission d nodes c ∧ RolesWritten d nodes c := by
  refine ⟨fun hvalid w m s name hw hb hname => ?_, fun c hc => ?_⟩
  · obtain ⟨before, a, after, ps, hlists, hjoined⟩ := hw.exists_joinedOn hb hname
    exact ⟨before, a, after, ps, hlists, hjoined, fun texts s₁ hrun =>
      hw.roleRendered hvalid hb hlists hjoined (.of_renderArgs hrun)⟩
  · obtain ⟨t, hreached, rfl⟩ := exists_reached_of_compile hc
    obtain ⟨nodes, hnodes⟩ := hreached.transcribes
    exact ⟨nodes, hnodes.emission hreached.joined.nodup, hreached.rolesWritten hnodes⟩

/-- An entrance that is connected to another layer and to a model. -/
def forkedLayer : Layer where
  id := .ofText "a"
  var := "x"
  className := "Input"
  entrance := true
  output := [.ofText "b", .ofText "m"]

/-- The other layer. -/
def sideLayer : Layer where
  id := .ofText "b"
  var := "y"
  className := "Dense"
  input := .single (.ofText "a")
  output := [.ofText "m"]

/-- A model over the two layers, with the given argument for its inputs. -/
def forkedModel (inputs : Argument) : Model where
  id := .ofText "m"
  var := "model"
  args := [inputs, ⟨"outputs", "b", .id⟩]

/-- The document of the two layers and the model. -/
def forked (inputs : Argument) : Document where
  entities := [.layer forkedLayer, .layer sideLayer, .model (forkedModel inputs)]
  nodup := by
    show [NodeId.ofText "a", .ofText "b", .ofText "m"].Nodup
    decide +kernel

/-- A list of ids that ends with a separator. -/
def trailingInputs : Argument :=
  ⟨"inputs", "a;", .id⟩

/-- The walk of the document when the second layer has arrived at the model and the first one is
about to. -/
def forkedWalk : Walk where
  entrances := []
  links := [(forkedLayer, .ofText "m")]
  draft :=
    { ledger := ((({} : Ledger).register (.ofText "m") [[.ofText "a"], [.ofText "b"]]).arrive
        (.ofText "m") (.ofText "b")).2
      scope := (((({} : Scope).touch layerSource).bind (.ofText "a") "x").bind (.ofText "b") "y")
      statements :=
        [⟨"x", "layers", "Input", "", none⟩, ⟨"y", "layers", "Dense", "", some "x"⟩]
      emitted := [.ofText "a", .ofText "b"] }

lemma reached_forkedWalk : Walk.Reached (forked trailingInputs) forkedWalk :=
  Walk.Reached.start.evaluate (k := 1) (n := 3) (by rfl)

lemma begins_forkedModel :
    forkedWalk.Begins (forked trailingInputs) (.model (forkedModel trailingInputs))
      (forkedWalk.draft.scope.touch modelSource) := by
  have hget : (forked trailingInputs).get? (forkedModel trailingInputs).id =
      some (.model (forkedModel trailingInputs)) := by cbv
  have hinputs : Draft.roleIds (forkedModel trailingInputs) Model.inputsName =
      .ok [.ofText "a"] := by rfl
  have houtputs : Draft.roleIds (forkedModel trailingInputs) Model.outputsName =
      .ok [.ofText "b"] := by rfl
  exact .model hget hinputs houtputs (Prod.ext (by rfl) rfl)

lemma validate_forked : validate (forked trailingInputs) = .ok () := by cbv

/-- **A list of ids that ends with a separator is refused.**  The model of the document is joined on
the one layer that its inputs list, but the blank after the separator is looked up as an id.  With
the same id as a text the document is compiled, and the id is written instead of the variable. -/
theorem trailing_separator_refused :
    Walk.Reached (forked trailingInputs) forkedWalk ∧
    forkedWalk.Begins (forked trailingInputs) (.model (forkedModel trailingInputs))
      (forkedWalk.draft.scope.touch modelSource) ∧
    trailingInputs.idList = [forkedLayer.id] ∧
    compile (forked trailingInputs) =
      .error (.danglingReference (.model (forkedModel trailingInputs)) trailingInputs
        (.ofText "")) ∧
    ∃ c, compile (forked ⟨"inputs", "a", .str⟩) = .ok c ∧
      c.statements.map (·.args) = ["", "", "inputs=\"a\", outputs=y"] := by
  refine ⟨reached_forkedWalk, begins_forkedModel, by decide +kernel, ?_, ?_⟩
  · have hstart : Encounters (forked trailingInputs)
        ⟨[], .model (forkedModel trailingInputs), .args (forkedModel trailingInputs).args,
          forkedWalk.draft.scope.touch modelSource⟩ :=
      ⟨validate_forked, _, _, _, reached_forkedWalk, begins_forkedModel, .refl⟩
    have hfirst : Renders (forked trailingInputs) [] (.model (forkedModel trailingInputs))
        (.reference trailingInputs (.ofText "a")) (forkedWalk.draft.scope.touch modelSource) ["x"]
        (forkedWalk.draft.scope.touch modelSource) := .known (by rfl)
    -- The rendering comes to the empty item behind the separator, which is no id of the document.
    have hblank : Encounters (forked trailingInputs)
        ⟨[], .model (forkedModel trailingInputs), .reference trailingInputs (.ofText ""),
          forkedWalk.draft.scope.touch modelSource⟩ :=
      hstart.reaches (.head (.items (by decide +kernel))
        (.head (.moreItems rfl hfirst) (.single (.reference rfl))))
    refine hblank.compile_eq_error (Run.result_reference_eq_error_iff.2 ?_)
    have hname : (forkedWalk.draft.scope.touch modelSource).name? (.ofText "") = none := by rfl
    have hget : (forked trailingInputs).get? (.ofText "") = none := by rfl
    simp only [run_renderReference, hname, hget]
  · have hrun : (evaluate (forked ⟨"inputs", "a", .str⟩) 6 4).map (·.statements.map (·.args)) =
        some ["", "", "inputs=\"a\", outputs=y"] := by
      decide +kernel
    obtain ⟨c, hc, hargs⟩ := Option.map_eq_some_iff.1 hrun
    exact ⟨c, compile_of_evaluate (by cbv) hc, hargs⟩

/-- The theorem at the joined model, where it gives the fault, and at a document that is
compiled. -/
theorem role_readings_forked :
    (∃ id, compile (forked trailingInputs) =
      .error (.danglingReference (.model (forkedModel trailingInputs)) trailingInputs id)) ∧
    ∃ nodes, Emission diamond nodes diamondResult ∧ RolesWritten diamond nodes diamondResult := by
  constructor
  · obtain ⟨before, a, after, ps, hlists, -, hrendered⟩ :=
      (role_readings (forked trailingInputs)).1 validate_forked forkedWalk
        (forkedModel trailingInputs) _ Model.inputsName reached_forkedWalk begins_forkedModel
        (Or.inl rfl)
    have harg : (forkedModel trailingInputs).arg? Model.inputsName = some trailingInputs := by rfl
    obtain rfl : trailingInputs = a := Option.some.inj (harg.symm.trans hlists.arg?_eq)
    have hbefore : before = [] := by
      cases before with
      | nil => rfl
      | cons b before =>
        have hargs := hlists.args
        simp only [forkedModel, List.cons_append, List.cons.injEq] at hargs
        exact absurd (hargs.1 ▸ rfl) (hlists.first b List.mem_cons_self)
    subst hbefore
    have hbad : ¬ trailingInputs.AllIds := fun hall => (hall "" (by decide +kernel)).1 rfl
    exact (hrendered [] _ (run_renderArgs_nil _)).refused rfl hbad (by rfl) (by rfl)
  · exact (role_readings diamond).2 diamondResult compile_diamond

end Flow

end NetDiagram
