import NetDiagram.Proofs.Failures
import NetDiagram.Proofs.Required

/-!
# Which arguments can be rendered

The arguments of an entity are rendered with those of all units and inline layers that they lead to,
its closure (`RenderedWith`).  What is already known in the scope is not rendered again, and a call
that is met twice is rendered once; so a rendering need not look at the whole closure.  This file
shows that its success depends on the whole closure all the same, and on nothing else.

## Main statements

* `ClosureSound.sound`: the arguments of an entity with a sound closure are sound.
* `ClosureSound.of_spells`: arguments that have a spelling have a sound closure.
* `Run.Fails.code_mem`: the codes of the faults of a rendering.
-/

namespace NetDiagram.Flow

variable {d : Document} {owner : Entity}

/-! ## Closures -/

/-- A unit or an inline layer of the closure of `owner` refers to another one. -/
structure CallsTo (d : Document) (owner e e' : Entity) : Prop where
  source_mem : RenderedWith d owner e
  source_call : (inlineCall? e).isSome
  target_mem : RenderedWith d owner e'
  target_call : (inlineCall? e').isSome
  names : Names e e'

/-- Nothing in the closure of the entity stops a rendering: every argument has a value, every item
of a reference names a layer, a unit or a placeholder, and the references among the units and the
inline layers have no cycle. -/
structure ClosureSound (d : Document) (owner : Entity) : Prop where
  set : ∀ e, RenderedWith d owner e → ∀ a ∈ e.args, a.isUnset = false
  referable : ∀ e, RenderedWith d owner e → ∀ a ∈ e.args, a.kind = .id → ∀ item ∈ a.items,
    d.Referable (.ofText (Text.trim item))
  acyclic : ∀ e, ¬ Relation.TransGen (CallsTo d owner) e e

lemma RenderedWith.involves {e : Entity} {ref : NodeId} (h : RenderedWith d owner e)
    (href : ref ∈ references e.args) : Involves d (references owner.args) ref := by
  rcases h with rfl | ⟨x, ⟨⟨first, hfirst, hreaches⟩, e', hget', hcall⟩, hget⟩
  · exact ⟨ref, href, .refl⟩
  · obtain rfl : e' = e := Option.some.inj (hget'.symm.trans hget)
    exact ⟨first, hfirst, hreaches.tail ⟨e', hget, hcall, href⟩⟩

/-- The units and inline layers among what is involved are in the closure. -/
lemma RenderedWith.of_involves {e : Entity} {x : NodeId}
    (h : Involves d (references owner.args) x) (hget : d.get? x = some e)
    (hcall : (inlineCall? e).isSome) : RenderedWith d owner e :=
  Or.inr ⟨x, ⟨h, e, hget, hcall⟩, hget⟩

lemma exists_renderedWith_of_involves {x : NodeId} (h : Involves d (references owner.args) x) :
    ∃ e, RenderedWith d owner e ∧ x ∈ references e.args := by
  obtain ⟨ref, href, hreaches⟩ := h
  rcases Relation.ReflTransGen.cases_tail hreaches with rfl | ⟨y, hy, e, hget, hcall, hmem⟩
  · exact ⟨owner, Or.inl rfl, href⟩
  · exact ⟨e, .of_involves ⟨ref, href, hy⟩ hget hcall, hmem⟩

lemma RenderedWith.get?_eq {e : Entity} (h : RenderedWith d owner e) (howner : owner ∈ d.entities) :
    d.get? e.id = some e := by
  rcases h with rfl | ⟨x, -, hget⟩
  · exact Document.get?_of_mem howner
  · rwa [Document.id_of_get? hget]

/-! ## Sound closures can be rendered -/

lemma CallsTo.of_refers {x y : NodeId} {e e' : Entity} (h : Refers d x y)
    (hx : Involves d (references owner.args) x) (hget : d.get? x = some e)
    (hget' : d.get? y = some e') (hcall' : (inlineCall? e').isSome) : CallsTo d owner e e' := by
  obtain ⟨e₁, hget₁, hcall, hmem⟩ := h
  obtain rfl : e₁ = e := Option.some.inj (hget₁.symm.trans hget)
  have hin : RenderedWith d owner e₁ := .of_involves hx hget hcall
  refine ⟨hin, hcall, .of_involves (hin.involves hmem) hget' hcall', hcall', ?_⟩
  rwa [Names, Document.id_of_get? hget']

lemma callsTo_of_refers {x y : NodeId} (h : Relation.TransGen (Refers d) x y)
    (hx : Involves d (references owner.args) x) {e e' : Entity} (hget : d.get? x = some e)
    (hget' : d.get? y = some e') (hcall' : (inlineCall? e').isSome) :
    Relation.TransGen (CallsTo d owner) e e' := by
  induction h generalizing e' with
  | single hrefers => exact .single (.of_refers hrefers hx hget hget' hcall')
  | @tail y z hxy hrefers ih =>
    obtain ⟨m, hm, hcall, -⟩ := id hrefers
    obtain ⟨ref, href, hreaches⟩ := hx
    have hy : Involves d (references owner.args) y :=
      ⟨ref, href, hreaches.trans hxy.to_reflTransGen⟩
    exact (ih hm hcall).tail (.of_refers hrefers hy hm hget' hcall')

/-- The arguments of an entity with a sound closure are sound. -/
theorem ClosureSound.sound (h : ClosureSound d owner) : (Piece.args owner.args).Sound d where
  set := h.set owner (Or.inl rfl)
  calls_set _ e hx hget hcall := h.set e (.of_involves hx hget hcall)
  referable x hx := by
    obtain ⟨e, hin, hmem⟩ := exists_renderedWith_of_involves hx
    obtain ⟨a, ha, hkind, item, hitem, rfl⟩ := mem_references_iff.1 hmem
    exact h.referable e hin a ha hkind item hitem
  acyclic x hx hcycle := by
    obtain ⟨y, ⟨e, hget, hcall, -⟩, -⟩ := Relation.TransGen.head'_iff.1 hcycle
    exact h.acyclic e (callsTo_of_refers hcycle hx hget hget hcall)

/-! ## What is rendered has a sound closure -/

/-- All that a spelled piece refers to is grounded. -/
theorem Spells.grounded {piece : Piece} {texts : List String} (h : Spells d piece texts)
    {x : NodeId} (hx : x ∈ piece.references) : Grounded d x := by
  induction h generalizing x with
  | noArgs => simp [Piece.references, NetDiagram.references] at hx
  | arg _ _ _ _ ihfirst ihothers =>
    rw [Piece.references_args_cons, List.mem_append] at hx
    exact hx.elim ihfirst ihothers
  | noItems => simp [Piece.references] at hx
  | quoted kind _ _ => simp [Piece.references, kind] at hx
  | verbatim kind _ _ => rcases kind with kind | kind | kind <;> simp [Piece.references, kind] at hx
  | item kind _ _ ihfirst ihothers =>
    rw [Piece.references_items_cons kind, List.mem_append] at hx
    exact hx.elim ihfirst ihothers
  | placeholder get =>
    obtain rfl := List.mem_singleton.1 hx
    exact grounded_of_leaf get rfl
  | unit get _ ih =>
    obtain rfl := List.mem_singleton.1 hx
    exact grounded_of_references get fun _ href => ih href
  | inline get _ _ ih =>
    obtain rfl := List.mem_singleton.1 hx
    exact grounded_of_references get fun _ href => ih href
  | named get mode =>
    obtain rfl := List.mem_singleton.1 hx
    exact grounded_of_leaf get (inlineCall?_layer_of_ne_ca mode)

lemma Spells.referable {a : Argument} {x : NodeId} {texts : List String}
    (h : Spells d (.reference a x) texts) : d.Referable x := by
  cases h with
  | placeholder get => exact ⟨_, get, rfl⟩
  | unit get _ => exact ⟨_, get, rfl⟩
  | inline get _ _ => exact ⟨_, get, rfl⟩
  | named get _ => exact ⟨_, get, rfl⟩

/-- Arguments that have a spelling have a sound closure. -/
theorem ClosureSound.of_spells {texts : List String} (h : Spells d (.args owner.args) texts)
    (howner : owner ∈ d.entities) : ClosureSound d owner where
  set e he a ha := by
    obtain ⟨_, hargs⟩ := h.args_of_renderedWith he
    exact hargs.isUnset_eq_false ha
  referable e he a ha hkind item hitem := by
    have hmem := mem_references_iff.2 ⟨a, ha, hkind, item, hitem, rfl⟩
    obtain ⟨b, text, hreference⟩ := h.of_involves (he.involves hmem)
    exact hreference.referable
  acyclic e hcycle := by
    have hrefers : ∀ e e', CallsTo d owner e e' → Refers d e.id e'.id := fun e e' hcalls =>
      ⟨e, hcalls.source_mem.get?_eq howner, hcalls.source_call, hcalls.names⟩
    obtain ⟨e', hfirst, hback⟩ := Relation.TransGen.head'_iff.1 hcycle
    -- The arguments of an entity of the closure are spelled, so that the entity is grounded.
    obtain ⟨_, hargs⟩ := h.args_of_renderedWith hfirst.source_mem
    have hground : Grounded d e.id :=
      grounded_of_references (hfirst.source_mem.get?_eq howner) fun _ href => hargs.grounded href
    exact hground.not_reaches (hrefers e e' hfirst) (hback.lift Entity.id hrefers)

/-! ## Success and failure -/

lemma Run.Fails.code_mem {r : Run} {fault : Fault} (h : r.Fails d fault) :
    fault.diagnostic.code.map Code.name ∈ [some "E300", some "E301", some "E302"] := by
  rw [Fault.code_diagnostic, Option.map_some]
  cases h with
  | unset _ => exact List.mem_cons_self
  | dangling _ _ => exact List.mem_cons_of_mem _ List.mem_cons_self
  | bad _ _ _ => exact List.mem_cons_of_mem _ List.mem_cons_self
  | loop _ _ _ _ => exact List.mem_cons_of_mem _ (List.mem_cons_of_mem _ List.mem_cons_self)

/-- **Sound closures, and no others.**  Every statement of a compilation begins with an entity of
the document, in a reachable scope.  In a reachable scope, whatever is known there, the arguments of
an entity of the document are rendered exactly if its closure is sound; otherwise the rendering
fails, with code `E300`, `E301` or `E302`. -/
theorem renders_iff_closureSound (d : Document) :
    (∀ w e s, Walk.Reached d w → w.Begins d e s → e ∈ d.entities ∧ s.Reachable d) ∧
    ∀ owner ∈ d.entities, ∀ s : Scope, s.Reachable d →
      ((∃ texts s', (renderArgs d [] owner owner.args).run s = .ok (texts, s')) ↔
        ClosureSound d owner) ∧
      (¬ ClosureSound d owner → ∃ fault, (renderArgs d [] owner owner.args).run s = .error fault ∧
        fault.diagnostic.code.map Code.name ∈ [some "E300", some "E301", some "E302"]) := by
  refine ⟨fun w e s hw hb => ?_, fun owner howner s hs => ?_⟩
  · obtain ⟨source, rfl⟩ := hb.exists_touch
    exact ⟨hb.mem_entities hw.coherent, hw.scope_reachable.touch source⟩
  · have hsound : (∃ texts s', (renderArgs d [] owner owner.args).run s = .ok (texts, s')) ↔
        ClosureSound d owner := by
      constructor
      · rintro ⟨texts, s', hrun⟩
        have hrenders : Renders d [] owner (.args owner.args) s texts s' := .of_renderArgs hrun
        exact .of_spells (hrenders.spells hs.spelled).1 howner
      · intro h
        obtain ⟨texts, s', hrenders⟩ := h.sound.exists_renders owner s
        exact ⟨texts, s', hrenders.run⟩
    -- Rendering ends in any case, so where it does not succeed it fails.
    refine ⟨hsound, fun hnot => ?_⟩
    cases hrun : (renderArgs d [] owner owner.args).run s with
    | ok result => exact absurd (hsound.1 ⟨result.1, result.2, hrun⟩) hnot
    | error fault =>
      obtain ⟨r, -, -, -, hfails⟩ := exists_fails_of_run hrun
      exact ⟨fault, rfl, hfails.code_mem⟩

lemma not_closureSound_seeded : ¬ ClosureSound seeded (.layer seededEntrance) := by
  intro h
  have hinvolves : Involves seeded (references (Entity.layer seededEntrance).args) (.ofText "u") :=
    ⟨_, by decide +kernel, .refl⟩
  have hin : RenderedWith seeded (.layer seededEntrance) (.unit seedUnit) :=
    .of_involves hinvolves (by cbv) rfl
  have hset := h.set _ hin ⟨"seed", "1;!REQ", .num⟩ List.mem_cons_self
  exact absurd hset (by decide +kernel)

/-- The theorem at a layer whose closure is sound, before and after it is rendered, and at the first
statement of `seeded`. -/
theorem renders_iff_closureSound_seeded :
    (∃ texts s, (renderArgs sharing [] (.layer sharingLayer) sharingLayer.args).run {} =
        .ok (texts, s) ∧
      ClosureSound sharing (.layer sharingLayer) ∧
      ∃ texts' s', (renderArgs sharing [] (.layer sharingLayer) sharingLayer.args).run s =
        .ok (texts', s')) ∧
    ∃ w s, Walk.Reached seeded w ∧ w.Begins seeded (.layer seededEntrance) s ∧
      ∃ fault, (renderArgs seeded [] (.layer seededEntrance) seededEntrance.args).run s =
          .error fault ∧
        fault.diagnostic.code.map Code.name ∈ [some "E300", some "E301", some "E302"] := by
  constructor
  · have hmem : .layer sharingLayer ∈ sharing.entities := by simp [sharing]
    have hdone : ((Piece.args sharingLayer.args).evaluate sharing 12 [] (.layer sharingLayer)
        {}).isSome := by decide +kernel
    obtain ⟨⟨texts, s⟩, heval⟩ := Option.isSome_iff_exists.1 hdone
    have hrun : (renderArgs sharing [] (.layer sharingLayer) sharingLayer.args).run {} =
      .ok (texts, s) := (Piece.renders_of_evaluate heval).run
    -- The scope that the first rendering leaves is reachable, so the theorem applies again.
    have hafter : s.Reachable sharing := Scope.Reachable.empty.renders (.of_renderArgs hrun)
    have hsound := ((renders_iff_closureSound sharing).2 _ hmem _ .empty).1.1 ⟨texts, s, hrun⟩
    exact ⟨texts, s, hrun, hsound,
      ((renders_iff_closureSound sharing).2 _ hmem _ hafter).1.2 hsound⟩
  · have hfirst : seeded.entrances = [seededEntrance] := by cbv
    obtain ⟨w, hw, hbegins⟩ := exists_begins_entrance hfirst (by decide)
    obtain ⟨hmem, hs⟩ := (renders_iff_closureSound seeded).1 _ _ _ hw hbegins
    exact ⟨w, _, hw, hbegins,
      ((renders_iff_closureSound seeded).2 _ hmem _ hs).2 not_closureSound_seeded⟩

end NetDiagram.Flow
