import NetDiagram.Proofs.Required
import NetDiagram.Proofs.Roles

/-!
# Definition before use

A statement reads variables of layers: in its call, where they are always those of earlier
statements, and in its arguments, where they may come before the statement that assigns them.  In
the second case there is a warning.

The warning is given only when a reference is rendered.  A unit or an inline layer that was written
once is found in the scope from then on, and what it refers to is not looked at again; in the
meantime the layer may have got its statement, or not.  So the warnings are complete only because of
an invariant of the scope: whatever a known expression leads to is known, or was noted
(`Scope.Closed`).

## Main statements

* `Renders.mem_notices`: the notices of a rendering are about references that it follows to layers
  that are not known.
* `Walk.Reached.isSome_name?_iff`: a layer with a variable is known exactly from its statement on.
* `Walk.Reached.warns`: of every layer that a statement reads, the statement stands before, or
  there is a notice; and there are no other notices.
-/

namespace NetDiagram

/-- The layer is one of the document, and it has a variable. -/
def Document.Materializes (d : Document) (l : Layer) : Prop :=
  d.get? l.id = some (.layer l) ∧ l.mode ≠ .ca

namespace Flow

variable {d : Document} {trail : List NodeId} {owner : Entity} {piece piece' : Piece}
  {s s' : Scope} {texts : List String}

/-! ## The notices of a rendering -/

namespace Piece

/-- The arguments of a piece, each with the ids that it refers to. -/
def mentions : Piece → List (Argument × NodeId)
  | args as => as.flatMap fun a => a.references.map fun id => (a, id)
  | items a xs => if a.kind = .id then xs.map fun x => (a, NodeId.ofText x) else []
  | reference a id => [(a, id)]

lemma mem_mentions_args {as : List Argument} {a : Argument} {id : NodeId} :
    (a, id) ∈ mentions (args as) ↔ a ∈ as ∧ id ∈ a.references := by
  simp [mentions, and_comm]

lemma mentions_args_cons (a : Argument) (rest : List Argument) :
    mentions (args (a :: rest)) =
      mentions (items a (a.items.map Text.trim)) ++ mentions (args rest) := by
  by_cases hk : a.kind = .id <;> simp [mentions, Argument.references, hk]

lemma mentions_items_cons {a : Argument} (hk : a.kind = .id) (x : String) (rest : List String) :
    mentions (items a (x :: rest)) =
      mentions (reference a (.ofText x)) ++ mentions (items a rest) := by
  simp [mentions, hk]

lemma references_eq_map_mentions (piece : Piece) :
    piece.references = piece.mentions.map Prod.snd := by
  cases piece with
  | args as =>
    simp [references, mentions, NetDiagram.references, List.map_flatMap, Function.comp_def]
  | items a xs => by_cases hk : a.kind = .id <;> simp [references, mentions, hk]
  | reference a id => rfl

end Piece

/-- A rendering of the piece follows the argument `a` of `o` to the id: the argument is one of the
piece, or one of something that is written inside it. -/
inductive FollowsTo (d : Document) (owner : Entity) (piece : Piece) (o : Entity) (a : Argument)
    (x : NodeId) : Prop
  | own (eq : o = owner) (mem : (a, x) ∈ piece.mentions)
  | inside {y : NodeId} (involves : Involves d piece.references y) (get : d.get? y = some o)
      (call : (inlineCall? o).isSome) (mem : a ∈ o.args) (ref : x ∈ a.references)

lemma FollowsTo.mono {o : Entity} {a : Argument} {x : NodeId} (h : FollowsTo d owner piece o a x)
    (hsub : piece.mentions ⊆ piece'.mentions) : FollowsTo d owner piece' o a x := by
  cases h with
  | own eq mem => exact .own eq (hsub mem)
  | inside hinvolves hget hcall hmem href =>
    obtain ⟨y, hy, hreaches⟩ := hinvolves
    rw [Piece.references_eq_map_mentions] at hy
    refine .inside ⟨y, ?_, hreaches⟩ hget hcall hmem href
    rw [Piece.references_eq_map_mentions]
    exact List.map_subset _ hsub hy

lemma FollowsTo.of_call {a b : Argument} {id x : NodeId} {target o : Entity}
    (h : FollowsTo d target (.args target.args) o a x) (hget : d.get? id = some target)
    (hcall : (inlineCall? target).isSome) : FollowsTo d owner (.reference b id) o a x := by
  cases h with
  | own eq mem =>
    obtain ⟨hmem, href⟩ := Piece.mem_mentions_args.1 mem
    exact .inside (involves_singleton.2 .refl) (eq ▸ hget) (eq ▸ hcall) (eq ▸ hmem) href
  | inside hinvolves hget' hcall' hmem href =>
    refine .inside (involves_singleton.2 ?_) hget' hcall' hmem href
    exact (reaches_call_iff hget hcall).2 (Or.inr hinvolves)

/-- The notice is about a reference to a layer with a variable that the scope does not know, and a
rendering of the piece follows that reference. -/
def NotedBy (d : Document) (owner : Entity) (piece : Piece) (s : Scope) (n : Notice) : Prop :=
  ∃ o a l, n = .forwardReference o a l ∧ d.Materializes l ∧ s.name? l.id = none ∧
    FollowsTo d owner piece o a l.id

lemma NotedBy.mono {n : Notice} (h : NotedBy d owner piece s' n) (hext : s.Extends s')
    (hsub : piece.mentions ⊆ piece'.mentions) : NotedBy d owner piece' s n := by
  obtain ⟨o, a, l, rfl, hl, hname, hfollows⟩ := h
  refine ⟨o, a, l, rfl, hl, ?_, hfollows.mono hsub⟩
  by_contra hknown
  have hsome := hext.names l.id (Option.isSome_iff_ne_none.2 hknown)
  simp [hname] at hsome

/-- **Notices are justified.**  A rendering keeps the notices, and adds only those about references
that it follows to layers that were not known before. -/
theorem Renders.mem_notices (h : Renders d trail owner piece s texts s') {n : Notice}
    (hn : n ∈ s'.notices) : n ∈ s.notices ∨ NotedBy d owner piece s n := by
  induction h with
  | noArgs => exact Or.inl hn
  | arg _ hfirst _ ihfirst ihothers =>
    rcases ihothers hn with hfirstn | hnoted
    · refine (ihfirst hfirstn).imp_right fun h => h.mono (.refl _) ?_
      rw [Piece.mentions_args_cons]
      exact List.subset_append_left _ _
    · refine Or.inr (hnoted.mono hfirst.extends ?_)
      rw [Piece.mentions_args_cons]
      exact List.subset_append_right _ _
  | noItems => exact Or.inl hn
  | literal hk _ ih =>
    refine (ih hn).imp_right fun h => h.mono (.refl _) ?_
    simp [Piece.mentions, hk]
  | item hk hfirst _ ihfirst ihothers =>
    rcases ihothers hn with hfirstn | hnoted
    · refine (ihfirst hfirstn).imp_right fun h => h.mono (.refl _) ?_
      rw [Piece.mentions_items_cons hk]
      exact List.subset_append_left _ _
    · refine Or.inr (hnoted.mono hfirst.extends ?_)
      rw [Piece.mentions_items_cons hk]
      exact List.subset_append_right _ _
  | known _ => exact Or.inl hn
  | placeholder _ _ => exact Or.inl hn
  | @forward _ owner a id s l hname hget hmode =>
    rcases List.mem_append.1 hn with hold | hnew
    · exact Or.inl hold
    · obtain rfl : l.id = id := Document.id_of_get? hget
      have hne : l.mode ≠ .ca := fun hca => by simp [hca, Mode.isMaterialized] at hmode
      exact Or.inr ⟨owner, a, l, List.mem_singleton.1 hnew, ⟨hget, hne⟩, hname,
        .own rfl (List.mem_singleton.2 rfl)⟩
  | @call _ _ _ _ s _ _ source _ _ hname hget hcall _ _ ih =>
    refine (ih hn).imp_right ?_
    rintro ⟨o, b, l, rfl, hl, hunknown, hfollows⟩
    exact ⟨o, b, l, rfl, hl, hunknown, hfollows.of_call hget (by simp [hcall])⟩

/-! ## Layers are known from their statements on -/

lemma Renders.name?_eq_of_materializes (h : Renders d trail owner piece s texts s') {l : Layer}
    (hl : d.Materializes l) : s'.name? l.id = s.name? l.id := by
  induction h with
  | noArgs => rfl
  | arg _ _ _ ihfirst ihothers => rw [ihothers, ihfirst]
  | noItems => rfl
  | literal _ _ ih => exact ih
  | item _ _ _ ihfirst ihothers => rw [ihothers, ihfirst]
  | known _ => rfl
  | placeholder _ hget =>
    rw [Scope.name?_bind, if_neg, Scope.name?_require]
    intro hid
    exact absurd (hl.1.symm.trans (hid ▸ hget)) (by simp)
  | forward _ _ _ => rfl
  | call _ hget hcall _ _ ih =>
    rw [Scope.name?_inline, Scope.name?_bind, if_neg, ih, Scope.name?_touch]
    intro hid
    obtain rfl := Option.some.inj (hl.1.symm.trans (hid ▸ hget))
    exact absurd (hcall.symm.trans (inlineCall?_layer_of_ne_ca hl.2)) (by simp)

/-- **Known from the statement on.**  A layer with a variable is known to the scope of a draft
exactly if it has a statement. -/
theorem Walk.Reached.isSome_name?_iff {w : Walk} (h : Walk.Reached d w) {l : Layer}
    (hl : d.Materializes l) :
    (w.draft.scope.name? l.id).isSome ↔ l.id ∈ w.draft.emitted := by
  constructor
  · refine h.induction_draft (P := fun t => (t.scope.name? l.id).isSome → l.id ∈ t.emitted)
      (by simp [Scope.name?]) fun t t' hstep ht hknown => ?_
    -- Only the statement of the layer itself gives it a name.
    cases hstep with
    | idle ledger => exact ht hknown
    | layer _ _ hr =>
      rcases Scope.isSome_name?_bind.1 hknown with hid | hbefore
      · exact List.mem_append_right _ (List.mem_singleton.2 hid)
      · rw [hr.name?_eq_of_materializes hl] at hbefore
        exact List.mem_append_left _ (ht hbefore)
    | model _ _ hr =>
      rw [hr.name?_eq_of_materializes hl] at hknown
      exact List.mem_append_left _ (ht hknown)
  · intro hmem
    simp [(h.named l hl.1 hmem).2]

/-! ## The notices of a draft -/

/-- The notice is about a layer with a variable that is read while the statement of `e` is written,
when only the nodes of the given ids have statements. -/
def ReadEarly (d : Document) (before : List NodeId) (e : Entity) (n : Notice) : Prop :=
  ∃ o a l, n = .forwardReference o a l ∧ d.Materializes l ∧ RenderedWith d e o ∧ a ∈ o.args ∧
    l.id ∈ a.references ∧ l.id ∉ before

/-- The notices of the draft are those about layers that are read before their statements. -/
structure Draft.Warns (d : Document) (t : Draft) : Prop where
  complete : ∀ before id e l, before ++ [id] <+: t.emitted → d.get? id = some e →
    d.Materializes l → Involves d (references e.args) l.id →
      l.id ∈ before ∨ ∃ o a, .forwardReference o a l ∈ t.scope.notices
  sound : ∀ n ∈ t.scope.notices, ∃ before id e, before ++ [id] <+: t.emitted ∧
    d.get? id = some e ∧ ReadEarly d before e n

/-- A reference that is followed while a statement is written is one of its entity, or one of
something that is written inside. -/
lemma FollowsTo.renderedWith {e o : Entity} {a : Argument} {x : NodeId}
    (h : FollowsTo d e (.args e.args) o a x) :
    RenderedWith d e o ∧ a ∈ o.args ∧ x ∈ a.references := by
  cases h with
  | own eq mem =>
    obtain ⟨hmem, href⟩ := Piece.mem_mentions_args.1 mem
    exact ⟨Or.inl eq, eq ▸ hmem, href⟩
  | inside hinvolves hget hcall hmem href =>
    exact ⟨Or.inr ⟨_, ⟨hinvolves, _, hget, hcall⟩, hget⟩, hmem, href⟩

namespace Draft.Warns

variable {t t' : Draft}

lemma start (d : Document) : Draft.Warns d {} where
  complete before id e l hplaced := by simp at hplaced
  sound n hn := by simp at hn

/-- Writing one more statement. -/
lemma write (h : t.Warns d) (hclosed : t.scope.Closed d)
    (hknown : ∀ l, d.Materializes l → ((t.scope.name? l.id).isSome ↔ l.id ∈ t.emitted))
    {e : Entity} {source : String} (hget : d.get? e.id = some e)
    (hr : Renders d [] e (.args e.args) (t.scope.touch source) texts s)
    (hemitted : t'.emitted = t.emitted ++ [e.id]) (hnotices : t'.scope.notices = s.notices) :
    t'.Warns d where
  complete before id e' l hplaced hget' hl hinvolves := by
    rw [hemitted, List.prefix_concat_iff] at hplaced
    rw [hnotices]
    rcases hplaced with heq | hold
    · -- The new statement: what it involves is recorded in the scope that it leaves.
      obtain ⟨rfl, hid⟩ := List.append_inj' heq rfl
      obtain rfl : id = e.id := List.singleton_inj.1 hid
      obtain rfl : e' = e := Option.some.inj (hget'.symm.trans hget)
      have hrec := (hr.records (hclosed.congr (by simp) (t.scope.extends_touch source))).2
      refine ((hrec l.id hinvolves).layer l hl.1 (inlineCall?_layer_of_ne_ca hl.2)).imp_left ?_
      intro hsome
      rw [hr.name?_eq_of_materializes hl] at hsome
      exact (hknown l hl).1 hsome
    · refine (h.complete before id e' l hold hget' hl hinvolves).imp_right ?_
      rintro ⟨o, a, hmem⟩
      exact ⟨o, a, hr.extends.notices hmem⟩
  sound n hn := by
    rw [hnotices] at hn
    rw [hemitted]
    rcases hr.mem_notices hn with hold | ⟨o, a, l, rfl, hl, hunknown, hfollows⟩
    · obtain ⟨before, id, e', hplaced, hread⟩ := h.sound n hold
      exact ⟨before, id, e', hplaced.trans (List.prefix_append _ _), hread⟩
    · obtain ⟨howner, hmem, href⟩ := hfollows.renderedWith
      -- The layer was unknown when its notice was added, so it had no statement.
      have hnew : l.id ∉ t.emitted := by
        intro hemit
        have hsome := (hknown l hl).2 hemit
        rw [Scope.name?_touch] at hunknown
        simp [hunknown] at hsome
      exact ⟨t.emitted, e.id, e, List.prefix_refl _, hget, o, a, l, rfl, hl, howner, hmem, href,
        hnew⟩

end Draft.Warns

/-- **Warnings.**  In every walk of a compilation the notices are those about layers that are read
before their statements. -/
theorem Walk.Reached.warns {w : Walk} (h : Walk.Reached d w) : w.draft.Warns d := by
  refine h.induction (P := fun w => w.draft.Warns d) (.start d) fun w w' hreached hs hw => ?_
  obtain ⟨nodes, hnodes⟩ := hreached.transcribes
  have hclosed := hnodes.scope.closed
  have hknown := fun l (hl : d.Materializes l) => hreached.isSome_name?_iff hl
  have hstep := hs.continues hreached.coherent
  generalize w'.draft = t' at hstep ⊢
  cases hstep with
  | idle ledger => exact ⟨hw.complete, hw.sound⟩
  | layer hget _ hr => exact hw.write (e := .layer _) hclosed hknown hget hr rfl rfl
  | model hget _ hr => exact hw.write (e := .model _) hclosed hknown hget hr rfl rfl

/-! ## Places in the list of nodes -/

namespace Draft.Transcribes

variable {t : Draft} {nodes : List Entity}

lemma placed_of_getElem? (h : t.Transcribes d nodes) {i : Nat} {e : Entity}
    (he : nodes[i]? = some e) : (nodes.take i).map Entity.id ++ [e.id] <+: t.emitted := by
  have htake : nodes.take (i + 1) = nodes.take i ++ [e] := by
    rw [List.take_add_one, he, Option.toList_some]
  have hplaced := (List.take_prefix (i + 1) nodes).map Entity.id
  rwa [htake, List.map_append, List.map_singleton, ← h.emitted] at hplaced

lemma exists_getElem?_of_placed (h : t.Transcribes d nodes) {before : List NodeId} {id : NodeId}
    {e : Entity} (hplaced : before ++ [id] <+: t.emitted) (hget : d.get? id = some e) :
    ∃ i, nodes[i]? = some e ∧ (nodes.take i).map Entity.id = before := by
  obtain ⟨after, hsplit⟩ := hplaced
  rw [h.emitted, List.append_assoc] at hsplit
  have hid : (nodes.map Entity.id)[before.length]? = some id := by
    rw [← hsplit]
    simp
  obtain ⟨e', he', rfl⟩ := Option.map_eq_some_iff.1 (List.getElem?_map .. ▸ hid)
  have hget' := h.transcript.get?_of_mem (List.mem_of_getElem? he')
  obtain rfl : e' = e := Option.some.inj (hget'.symm.trans hget)
  refine ⟨before.length, he', ?_⟩
  rw [List.map_take, ← hsplit, List.take_left]

lemma mem_take_iff (h : t.Transcribes d nodes) {i : Nat} {e : Entity}
    (hget : d.get? e.id = some e) :
    e ∈ nodes.take i ↔ e.id ∈ (nodes.take i).map Entity.id := by
  constructor
  · exact List.mem_map_of_mem
  · intro hmem
    obtain ⟨e', he', hid⟩ := List.mem_map.1 hmem
    have hget' := h.transcript.get?_of_mem (List.mem_of_mem_take he')
    rw [hid, hget, Option.some.injEq] at hget'
    exact hget' ▸ he'

end Draft.Transcribes

/-! ## Warnings -/

/-- The notice is a warning that names the argument, its owner and the layer. -/
structure ForwardWarning (o : Entity) (a : Argument) (l : Layer) (n : Notice) : Prop where
  eq : n = .forwardReference o a l
  code : n.diagnostic.code.map Code.name = some "W004"
  message : n.diagnostic.message = "argument " ++ ticked a.name ++ " of " ++ ticked o.label ++
    " refers to layer " ++ ticked (Entity.layer l).label ++ " before it is built"

lemma forwardWarning (o : Entity) (a : Argument) (l : Layer) :
    ForwardWarning o a l (.forwardReference o a l) :=
  ⟨rfl, (Notice.code_eq_iff (c := .forwardReference)).1 rfl, by simp [Notice.diagnostic]⟩

lemma code_of_mem_unusedLayers {t : Draft} {n : Notice} (h : n ∈ unusedLayers d t) :
    n.code = .unusedLayer := by
  obtain ⟨l, -, rfl⟩ := List.mem_map.1 h
  rfl

lemma code_of_mem_unreleasedModels {t : Draft} {n : Notice} (h : n ∈ unreleasedModels d t) :
    n.code = .unreleasedModel := by
  obtain ⟨m, -, rfl⟩ := List.mem_map.1 h
  rfl

/-- The notices about what was left out are of other kinds. -/
lemma Draft.mem_notices_iff {t : Draft} {n : Notice} (hn : n.code = .forwardReference) :
    n ∈ (t.finish d).notices ↔ n ∈ t.scope.notices := by
  have hlayers : n ∉ unusedLayers d t :=
    fun hmem => absurd (hn.symm.trans (code_of_mem_unusedLayers hmem)) (by simp)
  have hmodels : n ∉ unreleasedModels d t :=
    fun hmem => absurd (hn.symm.trans (code_of_mem_unreleasedModels hmem)) (by simp)
  simp [Draft.finish, hlayers, hmodels]

/-! ## Compilations -/

/-- **Definition before use.**  If a statement of a compilation reads a layer whose statement does
not come before, in its arguments or deeper, then there is a warning `W004` that names the layer.
Every warning `W004` is about a reference that is rendered with some statement, to a layer whose
statement does not come before that one.  Without such a warning every variable that a statement
reads, in its call or in its arguments, is assigned by an earlier statement. -/
theorem definition_before_use (d : Document) (c : Compilation) (h : compile d = .ok c) :
    ∃ nodes, Emission d nodes c ∧
      (∀ (i : Nat) (e : Entity) (l : Layer), nodes[i]? = some e → d.Materializes l →
        Involves d (references e.args) l.id → .layer l ∉ nodes.take i →
          ∃ o a, ∃ n ∈ c.notices, ForwardWarning o a l n) ∧
      (∀ n ∈ c.notices, n.diagnostic.code.map Code.name = some "W004" →
        ∃ (o : Entity) (a : Argument) (l : Layer) (i : Nat) (e : Entity),
          ForwardWarning o a l n ∧ d.Materializes l ∧ nodes[i]? = some e ∧
            RenderedWith d e o ∧ a ∈ o.args ∧ l.id ∈ a.references ∧ .layer l ∉ nodes.take i) ∧
      ((∀ n ∈ c.notices, n.diagnostic.code.map Code.name ≠ some "W004") →
        ∀ (i : Nat) (e : Entity) (st : Statement), nodes[i]? = some e →
          c.statements[i]? = some st → Justified d (nodes.take i) e st ∧
            ∀ l, d.Materializes l → Involves d (references e.args) l.id →
              .layer l ∈ nodes.take i) := by
  obtain ⟨t, hreached, rfl⟩ := exists_reached_of_compile h
  obtain ⟨nodes, hnodes⟩ := hreached.transcribes
  have hwarns := hreached.warns
  have hearly : ∀ (i : Nat) (e : Entity) (l : Layer), nodes[i]? = some e → d.Materializes l →
      Involves d (references e.args) l.id → .layer l ∉ nodes.take i →
        ∃ o a, ∃ n ∈ (t.finish d).notices, ForwardWarning o a l n := by
    intro i e l he hl hinvolves hnot
    have hget := hnodes.transcript.get?_of_mem (List.mem_of_getElem? he)
    rcases hwarns.complete _ _ e l (hnodes.placed_of_getElem? he) hget hl hinvolves with
      hmem | ⟨o, a, hnotice⟩
    · exact absurd ((hnodes.mem_take_iff (e := .layer l) hl.1).2 hmem) hnot
    · exact ⟨o, a, _, (Draft.mem_notices_iff rfl).2 hnotice, forwardWarning o a l⟩
  refine ⟨nodes, hnodes.emission hreached.joined.nodup, hearly, fun n hn hcode => ?_,
    fun hnone i e st he hst => ⟨hnodes.transcript.justified_at he hst, fun l hl hinvolves => ?_⟩⟩
  · have hn' := (Draft.mem_notices_iff (Notice.code_eq_iff.2 hcode)).1 hn
    obtain ⟨before, id, e, hplaced, hget, o, a, l, rfl, hl, howner, hmem, href, hnot⟩ :=
      hwarns.sound n hn'
    obtain ⟨i, he, rfl⟩ := hnodes.exists_getElem?_of_placed hplaced hget
    refine ⟨o, a, l, i, e, forwardWarning o a l, hl, he, howner, hmem, href, ?_⟩
    rwa [hnodes.mem_take_iff (e := .layer l) hl.1]
  · by_contra hnot
    obtain ⟨o, a, n, hn, hwarning⟩ := hearly i e l he hl hinvolves hnot
    exact hnone n hn hwarning.code

/-- A unit that refers to a layer. -/
def echoUnit : UnitSpec where
  id := .ofText "u"
  className := "Tied"
  source := "initializers"
  args := [⟨"to", "e", .id⟩]

/-- The layer that the unit refers to. -/
def echoLayer : Layer where
  id := .ofText "e"
  var := "v"
  className := "Dense"
  input := .single (.ofText "c")
  output := [.ofText "m"]

/-- Two layers have the unit inside, and both have their statements before the layer that the unit
refers to. -/
def echo : Document where
  entities :=
    [.unit echoUnit,
    .layer
      { id := .ofText "a", var := "x", className := "Input", entrance := true
        output := [.ofText "b", .ofText "c", .ofText "m"] },
    .layer
      { id := .ofText "b", var := "y", className := "Dense", args := [⟨"init", "u", .id⟩]
        input := .single (.ofText "a") },
    .layer
      { id := .ofText "c", var := "z", className := "Dense", args := [⟨"init", "u", .id⟩]
        input := .single (.ofText "a"), output := [.ofText "e"] },
    .layer echoLayer,
    .model
      { id := .ofText "m", var := "model"
        args := [⟨"inputs", "a", .id⟩, ⟨"outputs", "e", .id⟩] }]
  nodup := by decide +kernel

/-- The compilation of `echo`, with one warning for the two statements. -/
def echoResult : Compilation where
  statements :=
    [⟨"x", "layers", "Input", "", none⟩,
    ⟨"y", "layers", "Dense", "init=initializers.Tied(to=v)", some "x"⟩,
    ⟨"z", "layers", "Dense", "init=initializers.Tied(to=v)", some "x"⟩,
    ⟨"v", "layers", "Dense", "", some "z"⟩,
    ⟨"model", "models", "Model", "inputs=x, outputs=v", none⟩]
  endpoints := ["model"]
  placeholders := []
  sources := ["layers", "initializers", "models"]
  notices := [.forwardReference (.unit echoUnit) ⟨"to", "e", .id⟩ echoLayer]

lemma compile_echo : compile echo = .ok echoResult :=
  compile_of_evaluate (k := 9) (n := 7) (by cbv) (by rfl)

/-- The warning of `echo` is about the unit, inside a statement before that of the layer; `diamond`
has no warning, and each of its statements reads only what is assigned before. -/
theorem definition_before_use_echo :
    (compile echo = .ok echoResult ∧ ∃ nodes, Emission echo nodes echoResult ∧
      ∃ i e, nodes[i]? = some e ∧ RenderedWith echo e (.unit echoUnit) ∧
        .layer echoLayer ∉ nodes.take i) ∧
    compile diamond = .ok diamondResult ∧ ∃ nodes, Emission diamond nodes diamondResult ∧
      ∀ (i : Nat) (e : Entity) (l : Layer), nodes[i]? = some e → diamond.Materializes l →
        Involves diamond (references e.args) l.id → .layer l ∈ nodes.take i := by
  constructor
  · obtain ⟨nodes, hnodes, -, hsound, -⟩ := definition_before_use echo echoResult compile_echo
    obtain ⟨o, a, l, i, e, hwarning, -, he, howner, -, -, hnot⟩ :=
      hsound (.forwardReference (.unit echoUnit) ⟨"to", "e", .id⟩ echoLayer)
        (by simp [echoResult]) (forwardWarning _ _ _).code
    obtain ⟨rfl, -, rfl⟩ := Notice.forwardReference.inj hwarning.eq
    exact ⟨compile_echo, nodes, hnodes, i, e, he, howner, hnot⟩
  · obtain ⟨nodes, hnodes, -, -, hnone⟩ :=
      definition_before_use diamond diamondResult compile_diamond
    refine ⟨compile_diamond, nodes, hnodes, fun i e l he hl hinvolves => ?_⟩
    obtain ⟨hlt, -⟩ := List.getElem?_eq_some_iff.1 he
    have hst := List.getElem?_eq_getElem (hnodes.length_eq ▸ hlt)
    exact (hnone (by simp [diamondResult]) i e _ he hst).2 l hl hinvolves

end Flow

end NetDiagram
