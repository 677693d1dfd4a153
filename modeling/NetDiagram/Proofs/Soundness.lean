import NetDiagram.Proofs.Footprint

/-!
# Arguments that can be rendered

A rendering fails for one of three reasons: an argument has no value, a reference names nothing
that can be written, or references among units and inline layers lead back to where they started.
A piece is `Sound` if none of these is found in it or in anything that it involves.

## Main statements

* `Piece.Sound.exists_renders`: a sound piece is rendered in every scope, whatever is known there.

The trail guards the recursion, so the proof has to show that it never stops a sound piece: all that
is being written leads to all that is still to be written (`Piece.ReachedFrom`), and an id that
were written again would lead to itself.
-/

namespace NetDiagram

/-- Whether a reference to the entity can be written. -/
def Entity.isReferable : Entity → Bool
  | layer _ | unit _ | placeholder _ => true
  | _ => false

/-- The id names a layer, a unit or a placeholder. -/
def Document.Referable (d : Document) (id : NodeId) : Prop :=
  ∃ e, d.get? id = some e ∧ e.isReferable = true

instance (d : Document) (id : NodeId) : Decidable (d.Referable id) :=
  decidable_of_iff ((d.get? id).any Entity.isReferable) (by
    unfold Document.Referable
    cases d.get? id <;> simp)

namespace Flow

variable {d : Document} {trail : List NodeId} {piece piece' : Piece}

/-! ## Sound pieces -/

namespace Piece

/-- The arguments of a piece that are still to be looked at. -/
def arguments : Piece → List Argument
  | args as => as
  | _ => []

/-- Nothing in the piece, or in what it involves, stops a rendering. -/
structure Sound (d : Document) (piece : Piece) : Prop where
  set : ∀ a ∈ piece.arguments, a.isUnset = false
  /-- The calls that are written inside have values for their arguments. -/
  calls_set : ∀ x e, Involves d piece.references x → d.get? x = some e →
    (inlineCall? e).isSome → ∀ a ∈ e.args, a.isUnset = false
  referable : ∀ x, Involves d piece.references x → d.Referable x
  acyclic : ∀ x, Involves d piece.references x → ¬ Relation.TransGen (Refers d) x x

/-- All that is being written leads to all that the piece refers to. -/
def ReachedFrom (d : Document) (trail : List NodeId) (piece : Piece) : Prop :=
  ∀ y ∈ trail, ∀ ref ∈ piece.references, Relation.TransGen (Refers d) y ref

/-- What involves only what a sound piece involves is sound, if it has values itself. -/
lemma Sound.of_involves (h : piece.Sound d) (hset : ∀ a ∈ piece'.arguments, a.isUnset = false)
    (hinvolves : ∀ x, Involves d piece'.references x → Involves d piece.references x) :
    piece'.Sound d where
  set := hset
  calls_set x e hx := h.calls_set x e (hinvolves x hx)
  referable x hx := h.referable x (hinvolves x hx)
  acyclic x hx := h.acyclic x (hinvolves x hx)

lemma Sound.mono (h : piece.Sound d) (hargs : piece'.arguments ⊆ piece.arguments)
    (hrefs : piece'.references ⊆ piece.references) : piece'.Sound d :=
  h.of_involves (fun a ha => h.set a (hargs ha)) fun _ ⟨ref, href, hx⟩ => ⟨ref, hrefs href, hx⟩

lemma ReachedFrom.mono (h : piece.ReachedFrom d trail)
    (hrefs : piece'.references ⊆ piece.references) : piece'.ReachedFrom d trail :=
  fun y hy ref href => h y hy ref (hrefs href)

section Call

variable {a : Argument} {id : NodeId} {e : Entity}

/-- The arguments of a call that is written inside a sound piece are sound. -/
lemma Sound.call (h : (reference a id).Sound d) (hget : d.get? id = some e)
    (hcall : (inlineCall? e).isSome) : (args e.args).Sound d := by
  refine h.of_involves (h.calls_set id e (involves_singleton.2 .refl) hget hcall) fun x hx => ?_
  exact involves_singleton.2 ((reaches_call_iff hget hcall).2 (Or.inr hx))

lemma ReachedFrom.call (h : (reference a id).ReachedFrom d trail) (hget : d.get? id = some e)
    (hcall : (inlineCall? e).isSome) : (args e.args).ReachedFrom d (trail ++ [id]) := by
  intro y hy ref href
  have hrefers : Refers d id ref := ⟨e, hget, hcall, href⟩
  rcases List.mem_append.1 hy with hold | hlast
  · exact (h y hold id (List.mem_singleton.2 rfl)).tail hrefers
  · obtain rfl := List.mem_singleton.1 hlast
    exact .single hrefers

/-- The trail does not stop a sound reference. -/
lemma Sound.not_mem_trail (h : (reference a id).Sound d)
    (hreached : (reference a id).ReachedFrom d trail) : id ∉ trail := by
  intro hmem
  exact h.acyclic id (involves_singleton.2 .refl) (hreached id hmem id (List.mem_singleton.2 rfl))

end Call

/-! ## They are rendered -/

/-- The piece is rendered in every scope, if it is sound and the trail leads to it. -/
def Rendered (d : Document) (trail : List NodeId) (owner : Entity) (piece : Piece) : Prop :=
  piece.Sound d → piece.ReachedFrom d trail →
    ∀ s, ∃ texts s', Renders d trail owner piece s texts s'

variable {owner : Entity} {a : Argument}

lemma Rendered.args_cons {rest : List Argument}
    (hitems : Rendered d trail owner (items a (a.items.map Text.trim)))
    (hrest : Rendered d trail owner (args rest)) : Rendered d trail owner (args (a :: rest)) := by
  intro hsound hreached s
  have hleft : references (items a (a.items.map Text.trim)) ⊆ references (args (a :: rest)) := by
    rw [references_args_cons]
    exact List.subset_append_left _ _
  have hright : references (args rest) ⊆ references (args (a :: rest)) := by
    rw [references_args_cons]
    exact List.subset_append_right _ _
  obtain ⟨values, s₁, hfirst⟩ :=
    hitems (hsound.mono (List.nil_subset _) hleft) (hreached.mono hleft) s
  obtain ⟨texts, s₂, hothers⟩ :=
    hrest (hsound.mono (List.subset_cons_self _ _) hright) (hreached.mono hright) s₁
  exact ⟨_, s₂, .arg (hsound.set a List.mem_cons_self) hfirst hothers⟩

lemma eq_singleton_of_renders {id : NodeId} {s s' : Scope} {texts : List String}
    (h : Renders d trail owner (reference a id) s texts s') : ∃ text, texts = [text] := by
  cases h <;> exact ⟨_, rfl⟩

lemma Rendered.literal_cons {item : String} {rest : List String} (hk : a.kind ≠ .id)
    (hrest : Rendered d trail owner (items a rest)) :
    Rendered d trail owner (items a (item :: rest)) := by
  intro hsound hreached s
  have hrefs : references (items a rest) ⊆ references (items a (item :: rest)) := by
    simp [references, hk]
  obtain ⟨texts, s₁, hothers⟩ :=
    hrest (hsound.mono (List.nil_subset _) hrefs) (hreached.mono hrefs) s
  exact ⟨_, s₁, .literal hk hothers⟩

lemma Rendered.item_cons {item : String} {rest : List String} (hk : a.kind = .id)
    (hreference : Rendered d trail owner (reference a (.ofText item)))
    (hrest : Rendered d trail owner (items a rest)) :
    Rendered d trail owner (items a (item :: rest)) := by
  intro hsound hreached s
  have hleft : references (reference a (.ofText item)) ⊆ references (items a (item :: rest)) := by
    rw [references_items_cons hk]
    exact List.subset_append_left _ _
  have hright : references (items a rest) ⊆ references (items a (item :: rest)) := by
    rw [references_items_cons hk]
    exact List.subset_append_right _ _
  obtain ⟨texts₁, s₁, hfirst⟩ :=
    hreference (hsound.mono (List.nil_subset _) hleft) (hreached.mono hleft) s
  obtain ⟨text, rfl⟩ := eq_singleton_of_renders hfirst
  obtain ⟨texts, s₂, hothers⟩ :=
    hrest (hsound.mono (List.nil_subset _) hright) (hreached.mono hright) s₁
  exact ⟨_, s₂, .item hk hfirst hothers⟩

lemma Rendered.reference {id : NodeId}
    (hargs : ∀ target, d.get? id = some target → id ∉ trail →
      Rendered d (trail ++ [id]) target (args target.args)) :
    Rendered d trail owner (.reference a id) := by
  intro hsound hreached s
  -- In a sound piece nothing leads back to a call that is being written.
  have hnew := hsound.not_mem_trail hreached
  obtain ⟨target, hget, hreferable⟩ := hsound.referable id (involves_singleton.2 .refl)
  cases hname : s.name? id with
  | some text => exact ⟨_, _, .known hname⟩
  | none =>
    cases hcall : inlineCall? target with
    | some call =>
      have hinline : (inlineCall? target).isSome := by simp [hcall]
      obtain ⟨texts, s₁, hinner⟩ := hargs target hget hnew (hsound.call hget hinline)
        (hreached.call hget hinline) (s.touch call.1)
      exact ⟨_, _, .call hname hget hcall hnew hinner⟩
    | none =>
      cases target with
      | placeholder p => exact ⟨_, _, .placeholder hname hget⟩
      | layer l => exact ⟨_, _, .forward hname hget (isMaterialized_of_inlineCall? hcall)⟩
      | unit u => simp [inlineCall?] at hcall
      | model m => simp [Entity.isReferable] at hreferable
      | note n => simp [Entity.isReferable] at hreferable

lemma rendered (trail : List NodeId) (owner : Entity) (piece : Piece) :
    Rendered d trail owner piece := by
  induction trail, owner, piece using Piece.induction (d := d) with
  | noArgs => exact fun _ _ s => ⟨[], s, .noArgs⟩
  | arg _ _ _ _ ihitems ihrest => exact ihitems.args_cons ihrest
  | noItems => exact fun _ _ s => ⟨[], s, .noItems⟩
  | literal _ _ _ _ _ hk ihrest => exact .literal_cons hk ihrest
  | item _ _ _ _ _ hk ihreference ihrest => exact .item_cons hk ihreference ihrest
  | reference _ _ _ _ ihargs => exact .reference ihargs

/-- **Sound pieces are rendered.**  What can be found in the scope only spares work: in every scope
the rendering succeeds. -/
theorem Sound.exists_renders (h : piece.Sound d) (owner : Entity) (s : Scope) :
    ∃ texts s', Renders d [] owner piece s texts s' :=
  rendered [] owner piece h (fun y hy => by simp at hy) s

end Piece

end Flow

end NetDiagram
