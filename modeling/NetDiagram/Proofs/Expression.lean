import Mathlib.Logic.Relation
import NetDiagram.Proofs.Rendering

/-!
# Expressions without a scope

While statements are written, an entity that has an expression keeps it in the scope, and later
references read it there.  This file defines the expression of an entity from the document alone,
`Document.expression`, and shows that the scope changes nothing: in a `Faithful` scope every
expression is the one of the document, a successful rendering gives the texts that the document
gives, and it leaves the scope faithful.

References among units and inline layers may form a loop, and then there is no expression.  An id
is `Grounded` when no infinite chain of such references leaves it; only grounded ids are ever
rendered, and for them the trail that guards the recursion does not matter.

## Main statements

* `Grounded.not_reaches`: no reference of a grounded id leads back to it.
* `Grounded.expressionWithin_congr`: the expression of a grounded id is the same for all trails
  that avoid what it refers to.
* `Renders.faithful`: a successful rendering gives the texts of the document.
-/

namespace NetDiagram

/-- The ids that an argument refers to, in order. -/
def Argument.references (a : Argument) : List NodeId :=
  if a.kind = .id then (a.items.map Text.trim).map NodeId.ofText else []

/-- The ids that a list of arguments refers to, in order. -/
def references (args : List Argument) : List NodeId :=
  args.flatMap Argument.references

lemma mem_references_iff {args : List Argument} {id : NodeId} :
    id ∈ references args ↔
      ∃ a ∈ args, a.kind = .id ∧ ∃ item ∈ a.items, .ofText (Text.trim item) = id := by
  unfold references Argument.references
  rw [List.mem_flatMap]
  refine exists_congr fun a => and_congr_right fun _ => ?_
  split <;> simp [*]

namespace Flow

/-! ## Texts of arguments -/

/-- The text of an item, given the texts of the ids. -/
def itemText (text : NodeId → String) (a : Argument) (item : String) : String :=
  if a.kind = .id then text (.ofText item) else literalText a.kind item

/-- The text of an argument, given the texts of the ids. -/
def argumentText (text : NodeId → String) (a : Argument) : String :=
  a.name ++ "=" ++ bracket ((a.items.map Text.trim).map (itemText text a))

lemma argumentText_congr {f g : NodeId → String} {a : Argument}
    (h : ∀ id ∈ a.references, f id = g id) : argumentText f a = argumentText g a := by
  unfold argumentText
  congr 2
  refine List.map_congr_left fun item hitem => ?_
  unfold itemText
  by_cases hk : a.kind = .id
  · rw [if_pos hk, if_pos hk]
    refine h _ ?_
    rw [Argument.references, if_pos hk]
    exact List.mem_map_of_mem hitem
  · rw [if_neg hk, if_neg hk]

lemma map_argumentText_congr {f g : NodeId → String} {args : List Argument}
    (h : ∀ id ∈ references args, f id = g id) :
    args.map (argumentText f) = args.map (argumentText g) := by
  refine List.map_congr_left fun a ha => argumentText_congr fun id hid => h id ?_
  exact List.mem_flatMap.2 ⟨a, ha, hid⟩

/-! ## The expression of an entity -/

/-- The expression of an entity, from the document alone.  An id on the trail is not entered
again; it has no expression. -/
def expressionWithin (d : Document) (trail : List NodeId) (id : NodeId) : String :=
  match _found : d.get? id with
  | none => ""
  | some e =>
    match inlineCall? e with
    | some (source, className) =>
      if _new : id ∈ trail then ""
      else
        callText source className
          (e.args.map (argumentText fun ref => expressionWithin d (trail ++ [id]) ref))
    | none =>
      match e with
      | .placeholder p => "self." ++ p.name
      | .layer l => l.var
      | _ => ""
termination_by remaining d.ids trail
decreasing_by exact remaining_trail_lt (by assumption) (by assumption)

end Flow

/-- The expression of an entity: a member of the object for a placeholder, a call with the texts
of its own arguments for a unit or an inline layer, and a variable for any other layer. -/
def Document.expression (d : Document) (id : NodeId) : String :=
  Flow.expressionWithin d [] id

namespace Flow

variable {d : Document} {trail : List NodeId} {id : NodeId}

lemma expressionWithin_call {e : Entity} {source className : String} (hget : d.get? id = some e)
    (hcall : inlineCall? e = some (source, className)) (hnew : id ∉ trail) :
    expressionWithin d trail id =
      callText source className
        (e.args.map (argumentText (expressionWithin d (trail ++ [id])))) := by
  rw [expressionWithin]
  split
  · rename_i hnone
    exact absurd (hnone.symm.trans hget) (by simp)
  · rename_i e' hget'
    obtain rfl : e' = e := Option.some.inj (hget'.symm.trans hget)
    simp only [hcall, dif_neg hnew]

lemma expressionWithin_loop {e : Entity} (hget : d.get? id = some e)
    (hcall : (inlineCall? e).isSome) (hold : id ∈ trail) : expressionWithin d trail id = "" := by
  rw [expressionWithin]
  split
  · rfl
  · rename_i e' hget'
    obtain rfl : e' = e := Option.some.inj (hget'.symm.trans hget)
    obtain ⟨call, hcall⟩ := Option.isSome_iff_exists.1 hcall
    simp only [hcall, dif_pos hold]

/-- The expression of what is not written inside statements depends on no other expression. -/
def leafExpression : Entity → String
  | .placeholder p => "self." ++ p.name
  | .layer l => l.var
  | _ => ""

lemma expressionWithin_leaf {e : Entity} (hget : d.get? id = some e)
    (hcall : inlineCall? e = none) : expressionWithin d trail id = leafExpression e := by
  rw [expressionWithin]
  split
  · rename_i hnone
    exact absurd (hnone.symm.trans hget) (by simp)
  · rename_i e' hget'
    obtain rfl : e' = e := Option.some.inj (hget'.symm.trans hget)
    rw [hcall]
    cases e' <;> rfl

lemma expressionWithin_none (hget : d.get? id = none) : expressionWithin d trail id = "" := by
  rw [expressionWithin]
  split
  · rfl
  · rename_i e hget'
    exact absurd (hget.symm.trans hget') (by simp)

/-! ## Grounded ids -/

/-- A unit or an inline layer refers to the ids in its arguments. -/
def Refers (d : Document) (id ref : NodeId) : Prop :=
  ∃ e, d.get? id = some e ∧ (inlineCall? e).isSome ∧ ref ∈ references e.args

/-- No infinite chain of references leaves the id. -/
def Grounded (d : Document) (id : NodeId) : Prop :=
  Acc (fun ref id => Refers d id ref) id

/-- What is not written inside statements is grounded: its arguments are not followed. -/
lemma grounded_of_leaf {e : Entity} (hget : d.get? id = some e) (hcall : inlineCall? e = none) :
    Grounded d id := by
  refine Acc.intro id fun ref href => ?_
  obtain ⟨e', hget', hinline, -⟩ := href
  obtain rfl : e' = e := Option.some.inj (hget'.symm.trans hget)
  simp [hcall] at hinline

lemma grounded_of_references {e : Entity} (hget : d.get? id = some e)
    (h : ∀ ref ∈ references e.args, Grounded d ref) : Grounded d id := by
  refine Acc.intro id fun ref href => ?_
  obtain ⟨e', hget', -, hmem⟩ := href
  obtain rfl : e' = e := Option.some.inj (hget'.symm.trans hget)
  exact h ref hmem

/-- No reference of a grounded id leads back to it. -/
theorem Grounded.not_reaches (h : Grounded d id) {ref : NodeId} (href : Refers d id ref) :
    ¬ Relation.ReflTransGen (Refers d) ref id := by
  induction h generalizing ref with
  | intro id _ ih =>
    -- A loop through `id` is also a loop through its successor, which is covered by induction.
    intro hback
    rcases Relation.ReflTransGen.cases_head hback with rfl | ⟨next, hnext, hrest⟩
    · exact ih ref href href .refl
    · exact ih ref href hnext (hrest.tail href)

/-- The expression of a grounded id is the same for all trails that avoid what it leads to. -/
theorem Grounded.expressionWithin_congr (h : Grounded d id) {trail trail' : List NodeId}
    (ht : ∀ x, Relation.ReflTransGen (Refers d) id x → x ∉ trail)
    (ht' : ∀ x, Relation.ReflTransGen (Refers d) id x → x ∉ trail') :
    expressionWithin d trail id = expressionWithin d trail' id := by
  induction h generalizing trail trail' with
  | intro id hacc ih =>
    cases hget : d.get? id with
    | none => rw [expressionWithin_none hget, expressionWithin_none hget]
    | some e =>
      cases hcall : inlineCall? e with
      | none => rw [expressionWithin_leaf hget hcall, expressionWithin_leaf hget hcall]
      | some call =>
        obtain ⟨source, className⟩ := call
        rw [expressionWithin_call hget hcall (ht id .refl),
          expressionWithin_call hget hcall (ht' id .refl)]
        congr 1
        refine map_argumentText_congr fun ref href => ?_
        have hrefers : Refers d id ref := ⟨e, hget, by simp [hcall], href⟩
        -- The trail grows by the call itself, to which nothing that is grounded leads back.
        have havoid : ∀ {t : List NodeId},
            (∀ x, Relation.ReflTransGen (Refers d) id x → x ∉ t) →
            ∀ x, Relation.ReflTransGen (Refers d) ref x → x ∉ t ++ [id] := by
          intro t hid x hx hmem
          rcases List.mem_append.1 hmem with hmem | hmem
          · exact hid x (.head hrefers hx) hmem
          · obtain rfl := List.mem_singleton.1 hmem
            exact Grounded.not_reaches (Acc.intro x hacc) hrefers hx
        exact ih ref hrefers (havoid ht) (havoid ht')

/-- A unit or an inline layer is written as a call with the texts of its arguments. -/
theorem Grounded.expression_call (h : Grounded d id) {e : Entity} {source className : String}
    (hget : d.get? id = some e) (hcall : inlineCall? e = some (source, className)) :
    d.expression id = callText source className (e.args.map (argumentText d.expression)) := by
  unfold Document.expression
  rw [expressionWithin_call hget hcall (List.not_mem_nil)]
  congr 1
  refine map_argumentText_congr fun ref href => ?_
  have hrefers : Refers d id ref := ⟨e, hget, by simp [hcall], href⟩
  have hground : Grounded d ref := Acc.inv h hrefers
  refine hground.expressionWithin_congr ?_ fun x _ => List.not_mem_nil
  intro x hx hmem
  rw [List.nil_append, List.mem_singleton] at hmem
  exact h.not_reaches hrefers (hmem ▸ hx)

/-! ## Faithful scopes -/

namespace Scope

lemma name?_bind (s : Scope) (id x : NodeId) (text : String) :
    (s.bind id text).name? x = if x = id then some text else s.name? x := by
  unfold bind name?
  rw [List.lookup_cons]
  by_cases hx : x = id
  · simp [hx]
  · simp [hx, beq_eq_false_iff_ne.2 hx]

@[simp] lemma name?_touch (s : Scope) (source : String) (x : NodeId) :
    (s.touch source).name? x = s.name? x := rfl

@[simp] lemma name?_require (s : Scope) (name : String) (x : NodeId) :
    (s.require name).name? x = s.name? x := rfl

@[simp] lemma name?_note (s : Scope) (notice : Notice) (x : NodeId) :
    (s.note notice).name? x = s.name? x := rfl

@[simp] lemma name?_inline (s : Scope) (id x : NodeId) (text : String) :
    (s.inline id text).name? x = (s.bind id text).name? x := rfl

/-- Every expression of the scope is the one that the document gives. -/
def Faithful (d : Document) (s : Scope) : Prop :=
  ∀ x text, s.name? x = some text → Grounded d x ∧ text = d.expression x

lemma faithful_empty (d : Document) : Faithful d {} := by
  intro x text h
  simp [name?] at h

variable {s s' : Scope}

/-- The sources, parameters and notices of a scope do not matter. -/
lemma Faithful.congr (h : s.Faithful d) (heq : ∀ x, s'.name? x = s.name? x) : s'.Faithful d := by
  intro x text hx
  exact h x text (by rw [← heq, hx])

lemma Faithful.bind (h : s.Faithful d) (hground : Grounded d id) :
    (s.bind id (d.expression id)).Faithful d := by
  intro x text hx
  rw [name?_bind] at hx
  split at hx
  · rename_i hid
    rw [hid, ← Option.some.inj hx]
    exact ⟨hground, rfl⟩
  · exact h x text hx

end Scope

/-! ## The texts of a rendering -/

/-- The ids that a piece refers to, in order. -/
def Piece.references : Piece → List NodeId
  | .args as => NetDiagram.references as
  | .items a xs => if a.kind = .id then xs.map NodeId.ofText else []
  | .reference _ id => [id]

/-- The texts of a piece, given the texts of the ids. -/
def Piece.texts (text : NodeId → String) : Piece → List String
  | .args as => as.map (argumentText text)
  | .items a xs => xs.map (itemText text a)
  | .reference _ id => [text id]

lemma Piece.references_args_cons (a : Argument) (rest : List Argument) :
    (Piece.args (a :: rest)).references =
      (Piece.items a (a.items.map Text.trim)).references ++ (Piece.args rest).references := by
  simp [Piece.references, NetDiagram.references, Argument.references]

lemma Piece.references_items_cons {a : Argument} (hk : a.kind = .id) (item : String)
    (rest : List String) :
    (Piece.items a (item :: rest)).references =
      (Piece.reference a (.ofText item)).references ++ (Piece.items a rest).references := by
  simp [Piece.references, hk]

/-- **The scope is transparent.**  In a faithful scope a successful rendering gives the texts of
the document, whatever was rendered before, and leaves the scope faithful. -/
theorem Renders.faithful {owner : Entity} {piece : Piece} {s s' : Scope} {texts : List String}
    (h : Renders d trail owner piece s texts s') (hs : s.Faithful d) :
    s'.Faithful d ∧ (∀ ref ∈ piece.references, Grounded d ref) ∧
      texts = piece.texts d.expression := by
  induction h with
  | noArgs => exact ⟨hs, by simp [Piece.references, NetDiagram.references], rfl⟩
  | arg _ _ _ ihfirst ihothers =>
    obtain ⟨hs₁, hground₁, rfl⟩ := ihfirst hs
    obtain ⟨hs₂, hground₂, rfl⟩ := ihothers hs₁
    refine ⟨hs₂, ?_, rfl⟩
    rw [Piece.references_args_cons]
    intro ref href
    exact (List.mem_append.1 href).elim (hground₁ ref) (hground₂ ref)
  | noItems => exact ⟨hs, by simp [Piece.references], rfl⟩
  | literal hk _ ih =>
    obtain ⟨hs', hground, rfl⟩ := ih hs
    refine ⟨hs', by simp [Piece.references, hk], ?_⟩
    simp [Piece.texts, itemText, hk]
  | item hk _ _ ihfirst ihothers =>
    obtain ⟨hs₁, hground₁, htext⟩ := ihfirst hs
    obtain ⟨hs₂, hground₂, rfl⟩ := ihothers hs₁
    refine ⟨hs₂, ?_, ?_⟩
    · rw [Piece.references_items_cons hk]
      intro ref href
      exact (List.mem_append.1 href).elim (hground₁ ref) (hground₂ ref)
    · rw [Piece.texts, List.cons.injEq] at htext
      simp [Piece.texts, itemText, hk, htext.1]
  -- A text that is known was recorded by an earlier call, and the scope is faithful.
  | known hname =>
    obtain ⟨hground, rfl⟩ := hs _ _ hname
    exact ⟨hs, by simpa [Piece.references] using hground, rfl⟩
  | @placeholder _ _ _ id s p _ hget =>
    have hground : Grounded d id := grounded_of_leaf hget rfl
    have hexpr : d.expression id = "self." ++ p.name := expressionWithin_leaf hget rfl
    refine ⟨?_, by simpa [Piece.references] using hground, by simp [Piece.texts, hexpr]⟩
    rw [← hexpr]
    exact (hs.congr (by simp)).bind hground
  | @forward _ _ _ id s l _ hget hmode =>
    have hcall : inlineCall? (.layer l) = none := by simp [inlineCall?, hmode]
    have hground : Grounded d id := grounded_of_leaf hget hcall
    have hexpr : d.expression id = l.var := expressionWithin_leaf hget hcall
    exact ⟨hs.congr (by simp), by simpa [Piece.references] using hground,
      by simp [Piece.texts, hexpr]⟩
  | @call _ _ _ id s s₁ target source className _ _ hget hcall _ _ ih =>
    obtain ⟨hs₁, hrefs, rfl⟩ := ih (hs.congr (by simp))
    -- The call is grounded because all its references have been rendered.
    have hground : Grounded d id := grounded_of_references hget hrefs
    have hexpr := hground.expression_call hget hcall
    refine ⟨?_, by simpa [Piece.references] using hground, by simp [Piece.texts, hexpr]⟩
    rw [Piece.texts, ← hexpr]
    exact (hs₁.bind hground).congr (by simp)

/-- The text of a list of arguments, from the document alone. -/
def argsText (d : Document) (args : List Argument) : String :=
  ", ".intercalate (args.map (argumentText d.expression))

end Flow

end NetDiagram
