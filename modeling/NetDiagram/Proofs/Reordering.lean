import Mathlib.Data.List.Perm.Basic
import NetDiagram.Proofs.Closure

/-!
# Reordered documents

Two documents are `Reordered` when they have the same entities, up to the order of the entities
and the order of the outputs of each layer.  Everything that a document says apart from these
orders is the same in both: its lookups up to the outputs (`Reordered.get?_rewired`), the
expressions of its entities, what these involve, its connections, and the sets of nodes that are
closed under its connections.
-/

namespace NetDiagram

/-- The entities differ at most in the order of the outputs of a layer. -/
inductive Rewired : Entity → Entity → Prop
  | layer (l : Layer) {output : List NodeId} (perm : l.output.Perm output) :
      Rewired (.layer l) (.layer { l with output := output })
  | same (e : Entity) : Rewired e e

namespace Rewired

variable {e e' : Entity}

lemma symm (h : Rewired e e') : Rewired e' e := by
  cases h with
  | @layer l output hperm => exact .layer { l with output := output } hperm.symm
  | same => exact .same e

lemma id_eq (h : Rewired e e') : e'.id = e.id := by
  cases h <;> rfl

lemma args_eq (h : Rewired e e') : e'.args = e.args := by
  cases h <;> rfl

lemma inlineCall?_eq (h : Rewired e e') : Flow.inlineCall? e' = Flow.inlineCall? e := by
  cases h <;> rfl

lemma leafExpression_eq (h : Rewired e e') : Flow.leafExpression e' = Flow.leafExpression e := by
  cases h <;> rfl

lemma statementSource?_eq (h : Rewired e e') :
    Flow.statementSource? e' = Flow.statementSource? e := by
  cases h <;> rfl

/-- Only layers have outputs. -/
lemma eq_of_not_layer (h : Rewired e e') (hne : ∀ l, e ≠ .layer l) : e' = e := by
  cases h with
  | layer l _ => exact absurd rfl (hne l)
  | same => rfl

lemma exists_layer {l : Layer} (h : Rewired (.layer l) e') :
    ∃ output, l.output.Perm output ∧ e' = .layer { l with output := output } := by
  cases h with
  | layer _ hperm => exact ⟨_, hperm, rfl⟩
  | same => exact ⟨l.output, .refl _, rfl⟩

lemma exists_of_mem {es es' : List Entity} (h : List.Forall₂ Rewired es es') (he : e ∈ es) :
    ∃ x ∈ es', Rewired e x := by
  induction h with
  | nil => simp at he
  | cons hr _ ih =>
    rcases List.mem_cons.1 he with rfl | he
    · exact ⟨_, List.mem_cons_self, hr⟩
    · obtain ⟨x, hx, hrx⟩ := ih he
      exact ⟨x, List.mem_cons_of_mem _ hx, hrx⟩

lemma filterMap_eq {β : Type} {f g : Entity → Option β} {es es' : List Entity}
    (h : List.Forall₂ Rewired es es') (hfg : ∀ e e', Rewired e e' → g e' = f e) :
    es'.filterMap g = es.filterMap f := by
  induction h with
  | nil => rfl
  | cons hr _ ih => rw [List.filterMap_cons, List.filterMap_cons, hfg _ _ hr, ih]

end Rewired

namespace Document

/-- The documents have the same entities, up to the order of the entities and the order of the
outputs of each layer. -/
def Reordered (d d' : Document) : Prop :=
  ∃ es, d.entities.Perm es ∧ List.Forall₂ Rewired es d'.entities

namespace Reordered

variable {d d' : Document} {id : NodeId} {e : Entity}

lemma symm (h : d.Reordered d') : d'.Reordered d := by
  obtain ⟨es, hperm, hrel⟩ := h
  obtain ⟨es', hrel', hperm'⟩ := List.perm_comp_forall₂ hperm hrel
  exact ⟨es', hperm'.symm, hrel'.flip.imp fun _ _ hr => Rewired.symm hr⟩

/-- An id names the same entity in both, up to the order of its outputs. -/
theorem get?_rewired (h : d.Reordered d') (hget : d.get? id = some e) :
    ∃ e', d'.get? id = some e' ∧ Rewired e e' := by
  obtain ⟨es, hperm, hrel⟩ := h
  obtain ⟨hmem, hid⟩ := get?_eq_some_iff.1 hget
  obtain ⟨e', hmem', hr⟩ := Rewired.exists_of_mem hrel (hperm.mem_iff.1 hmem)
  exact ⟨e', get?_eq_some_iff.2 ⟨hmem', hr.id_eq.trans hid⟩, hr⟩

lemma get?_none (h : d.Reordered d') (hget : d.get? id = none) : d'.get? id = none := by
  cases hget' : d'.get? id with
  | none => rfl
  | some e' =>
    obtain ⟨e, he, -⟩ := h.symm.get?_rewired hget'
    exact absurd (hget.symm.trans he) (by simp)

/-- What is read off an entity without regard to the order of its outputs. -/
lemma bind_get?_eq {β : Type} (h : d.Reordered d') {f g : Entity → Option β}
    (hfg : ∀ e e', Rewired e e' → g e' = f e) (id : NodeId) :
    (d'.get? id).bind g = (d.get? id).bind f := by
  cases hget : d.get? id with
  | none => rw [h.get?_none hget]; rfl
  | some e =>
    obtain ⟨e', hget', hr⟩ := h.get?_rewired hget
    rw [hget']
    exact hfg e e' hr

/-- What is collected from the entities without regard to the order of their outputs. -/
lemma filterMap_perm {β : Type} (h : d.Reordered d') {f g : Entity → Option β}
    (hfg : ∀ e e', Rewired e e' → g e' = f e) :
    (d.entities.filterMap f).Perm (d'.entities.filterMap g) := by
  obtain ⟨es, hperm, hrel⟩ := h
  rw [Rewired.filterMap_eq hrel hfg]
  exact hperm.filterMap f

/-! ## Connections -/

lemma feeds (h : d.Reordered d') {p n : NodeId} (hfeeds : d.Feeds p n) : d'.Feeds p n := by
  obtain ⟨l, hget, hn⟩ := hfeeds
  obtain ⟨e', hget', hr⟩ := h.get?_rewired hget
  obtain ⟨output, hperm, rfl⟩ := hr.exists_layer
  exact ⟨_, hget', hperm.mem_iff.1 hn⟩

lemma exists_layer (h : d.Reordered d') {l' : Layer} (hl' : l' ∈ d'.layers) :
    ∃ l ∈ d.layers, l.id = l'.id ∧ l.input = l'.input ∧ l.entrance = l'.entrance := by
  obtain ⟨e, hget, hr⟩ := h.symm.get?_rewired (mem_layers_iff.1 hl')
  obtain ⟨output, -, rfl⟩ := hr.exists_layer
  exact ⟨{ l' with output := output }, mem_layers_iff.2 hget, rfl, rfl, rfl⟩

lemma mem_models (h : d.Reordered d') {m : Model} (hm : m ∈ d'.models) : m ∈ d.models := by
  obtain ⟨e, hget, hr⟩ := h.symm.get?_rewired (mem_models_iff.1 hm)
  rw [hr.eq_of_not_layer (by simp)] at hget
  exact mem_models_iff.2 hget

end Reordered

end Document

namespace Flow

open Document

variable {d d' : Document}

/-! ## Expressions -/

/-- The expression of an id is the same in both. -/
theorem expressionWithin_of_reordered (h : d.Reordered d') (trail : List NodeId) (id : NodeId) :
    expressionWithin d' trail id = expressionWithin d trail id := by
  -- The recursion enters each id of a chain of references at most once.
  induction hn : remaining d.ids trail using Nat.strong_induction_on generalizing trail id with
  | h n ih =>
    cases hget : d.get? id with
    | none => rw [expressionWithin_none hget, expressionWithin_none (h.get?_none hget)]
    | some e =>
      obtain ⟨e', hget', hr⟩ := h.get?_rewired hget
      have hcall' := hr.inlineCall?_eq
      cases hcall : inlineCall? e with
      | none =>
        rw [expressionWithin_leaf hget hcall, expressionWithin_leaf hget' (hcall'.trans hcall),
          hr.leafExpression_eq]
      | some call =>
        obtain ⟨source, className⟩ := call
        rw [hcall] at hcall'
        by_cases hold : id ∈ trail
        · rw [expressionWithin_loop hget (by simp [hcall]) hold,
            expressionWithin_loop hget' (by simp [hcall']) hold]
        · have hlt : remaining d.ids (trail ++ [id]) < n := hn ▸ remaining_trail_lt hget hold
          have heq : expressionWithin d' (trail ++ [id]) = expressionWithin d (trail ++ [id]) :=
            funext fun ref => ih _ hlt _ ref rfl
          rw [expressionWithin_call hget hcall hold, expressionWithin_call hget' hcall' hold,
            hr.args_eq, heq]

lemma argsText_of_reordered (h : d.Reordered d') (args : List Argument) :
    argsText d' args = argsText d args := by
  have heq : d'.expression = d.expression :=
    funext fun id => expressionWithin_of_reordered h [] id
  rw [argsText, argsText, heq]

/-! ## What statements need -/

lemma refers_of_reordered (h : d.Reordered d') {id ref : NodeId} (hrefers : Refers d id ref) :
    Refers d' id ref := by
  obtain ⟨e, hget, hcall, href⟩ := hrefers
  obtain ⟨e', hget', hr⟩ := h.get?_rewired hget
  exact ⟨e', hget', by rwa [hr.inlineCall?_eq], by rwa [hr.args_eq]⟩

lemma involves_of_reordered (h : d.Reordered d') {refs : List NodeId} {x : NodeId}
    (hx : Involves d refs x) : Involves d' refs x := by
  obtain ⟨ref, href, hreach⟩ := hx
  exact ⟨ref, href, Relation.ReflTransGen.mono (fun _ _ => refers_of_reordered h) _ _ hreach⟩

variable {e e' : Entity}

lemma needsPlaceholder_of_reordered (h : d.Reordered d') (hr : Rewired e e') {name : String}
    (hneeds : NeedsPlaceholder d e name) : NeedsPlaceholder d' e' name := by
  obtain ⟨x, p, hx, hget, hname⟩ := hneeds
  obtain ⟨y, hget', hry⟩ := h.get?_rewired hget
  rw [hry.eq_of_not_layer (by simp)] at hget'
  rw [← hr.args_eq] at hx
  exact ⟨x, p, involves_of_reordered h hx, hget', hname⟩

lemma inlines_of_reordered (h : d.Reordered d') (hr : Rewired e e') {x : NodeId}
    (hinlines : Inlines d e x) : Inlines d' e' x := by
  obtain ⟨hx, y, hget, hcall⟩ := hinlines
  obtain ⟨y', hget', hry⟩ := h.get?_rewired hget
  rw [← hr.args_eq] at hx
  exact ⟨involves_of_reordered h hx, y', hget', by rwa [hry.inlineCall?_eq]⟩

lemma needsSource_of_reordered (h : d.Reordered d') (hr : Rewired e e') {source : String}
    (hneeds : NeedsSource d e source) : NeedsSource d' e' source := by
  rcases hneeds with hown | ⟨x, y, className, hx, hget, hcall⟩
  · exact Or.inl (hr.statementSource?_eq.trans hown)
  · obtain ⟨y', hget', hry⟩ := h.get?_rewired hget
    rw [← hr.args_eq] at hx
    exact Or.inr ⟨x, y', className, involves_of_reordered h hx, hget',
      hry.inlineCall?_eq.trans hcall⟩

/-! ## Closed sets -/

lemma FlowClosed.of_reordered (h : d.Reordered d') {E : Set NodeId} (hE : FlowClosed d E) :
    FlowClosed d' E where
  entrance l' hl' := by
    obtain ⟨hget, hmark⟩ := mem_entrances_iff.1 hl'
    obtain ⟨l, hl, hid, -, hentrance⟩ := h.exists_layer (mem_layers_iff.2 hget)
    rw [← hid]
    exact hE.entrance l (List.mem_filter.2 ⟨hl, hentrance.trans hmark⟩)
  single l' hl' p hinput hp hfeeds := by
    obtain ⟨l, hl, hid, hinput', -⟩ := h.exists_layer hl'
    rw [← hid] at hfeeds ⊢
    exact hE.single l hl p (hinput'.trans hinput) hp (h.symm.feeds hfeeds)
  many l' hl' ids hinput hne hall := by
    obtain ⟨l, hl, hid, hinput', -⟩ := h.exists_layer hl'
    rw [← hid] at hall ⊢
    refine hE.many l hl ids (hinput'.trans hinput) hne fun p hp => ?_
    exact ⟨(hall p hp).1, h.symm.feeds (hall p hp).2⟩
  model m hm hne hall := by
    refine hE.model m (h.mem_models hm) hne fun p hp => ?_
    exact ⟨(hall p hp).1, h.symm.feeds (hall p hp).2⟩

end Flow

end NetDiagram
