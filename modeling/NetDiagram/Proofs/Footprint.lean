import NetDiagram.Proofs.Expression

/-!
# What a rendering records

Beside its texts, a rendering leaves a record in the scope: the parameters of the placeholders it
met, the import groups of the calls it wrote, the entities that it wrote inside a statement, and
notices of the layers that it named before their statements.  An expression that is already known
is not rendered again, and then nothing is recorded.  This file shows that nothing is missed by
that, and that nothing else is recorded.

What matters is the set of ids that a list of references `Involves`: the ids themselves and all
that units and inline layers among them lead to.

## Main statements

* `Renders.records`: after a successful rendering all that the piece involves is recorded.
* `Renders.addsOnly`: a successful rendering records only what the piece involves.
* `Scope.Accounts.render`: the scope after a number of statements has recorded exactly what these
  statements need.

The invariant behind the first is that a scope is `Closed`: with an entity whose expression is
known, all that it leads to is recorded.
-/

namespace NetDiagram.Flow

variable {d : Document} {trail : List NodeId} {owner : Entity} {id : NodeId}

/-! ## Involved ids -/

/-- The id is one of the given ones, or units and inline layers lead from one of them to it. -/
def Involves (d : Document) (refs : List NodeId) (x : NodeId) : Prop :=
  ∃ ref ∈ refs, Relation.ReflTransGen (Refers d) ref x

lemma involves_append {xs ys : List NodeId} {x : NodeId} :
    Involves d (xs ++ ys) x ↔ Involves d xs x ∨ Involves d ys x := by
  simp only [Involves, List.mem_append, or_and_right, exists_or]

lemma involves_singleton {x : NodeId} :
    Involves d [id] x ↔ Relation.ReflTransGen (Refers d) id x := by
  simp [Involves]

/-- Nothing leads on from what is not written inside statements. -/
lemma eq_of_reaches_leaf {e : Entity} {x : NodeId} (hget : d.get? id = some e)
    (hcall : inlineCall? e = none) (h : Relation.ReflTransGen (Refers d) id x) : x = id := by
  rcases Relation.ReflTransGen.cases_head h with rfl | ⟨ref, href, -⟩
  · rfl
  · obtain ⟨e', hget', hinline, -⟩ := href
    obtain rfl : e' = e := Option.some.inj (hget'.symm.trans hget)
    simp [hcall] at hinline

lemma reaches_call_iff {e : Entity} {x : NodeId} (hget : d.get? id = some e)
    (hcall : (inlineCall? e).isSome) :
    Relation.ReflTransGen (Refers d) id x ↔ x = id ∨ Involves d (references e.args) x := by
  constructor
  · intro h
    rcases Relation.ReflTransGen.cases_head h with rfl | ⟨ref, href, hrest⟩
    · exact Or.inl rfl
    · obtain ⟨e', hget', -, hmem⟩ := href
      obtain rfl : e' = e := Option.some.inj (hget'.symm.trans hget)
      exact Or.inr ⟨ref, hmem, hrest⟩
  · rintro (rfl | ⟨ref, hmem, hrest⟩)
    · exact .refl
    · exact .head ⟨e, hget, hcall, hmem⟩ hrest

/-! ## Records of a scope -/

lemma mem_insertNew {s x : String} {xs : List String} :
    x ∈ insertNew s xs ↔ x = s ∨ x ∈ xs := by
  unfold insertNew
  split
  · rename_i hs
    constructor
    · exact Or.inr
    · rintro (rfl | hx)
      · exact hs
      · exact hx
  · rw [List.mem_append, List.mem_singleton, or_comm]

namespace Scope

/-- What the entity of an id leaves in a scope is there: the parameter of a placeholder; the mark
and the import group of what is written inside a statement; for a layer with a variable, a notice,
unless the variable is known. -/
structure Records (d : Document) (s : Scope) (x : NodeId) : Prop where
  placeholder : ∀ p, d.get? x = some (.placeholder p) → p.name ∈ s.placeholders
  call : ∀ e source className, d.get? x = some e → inlineCall? e = some (source, className) →
    source ∈ s.sources ∧ x ∈ s.inlined
  layer : ∀ l, d.get? x = some (.layer l) → inlineCall? (.layer l) = none →
    (s.name? x).isSome ∨ ∃ owner a, .forwardReference owner a l ∈ s.notices

/-- The second scope has all that the first one has. -/
structure Grows (s s' : Scope) : Prop where
  placeholders : s.placeholders ⊆ s'.placeholders
  sources : s.sources ⊆ s'.sources
  inlined : s.inlined ⊆ s'.inlined

/-- The second scope is a later one: it has all that the first one has, knows what the first one
knows, and keeps its notices. -/
structure Extends (s s' : Scope) : Prop extends Grows s s' where
  names : ∀ x, (s.name? x).isSome → (s'.name? x).isSome
  notices : s.notices ⊆ s'.notices

lemma Extends.refl (s : Scope) : Extends s s :=
  ⟨⟨List.Subset.refl _, List.Subset.refl _, List.Subset.refl _⟩, fun _ => id, List.Subset.refl _⟩

lemma Extends.trans {s₁ s₂ s₃ : Scope} (h : Extends s₁ s₂) (h' : Extends s₂ s₃) :
    Extends s₁ s₃ where
  placeholders := List.Subset.trans h.placeholders h'.placeholders
  sources := List.Subset.trans h.sources h'.sources
  inlined := List.Subset.trans h.inlined h'.inlined
  names x hx := h'.names x (h.names x hx)
  notices := List.Subset.trans h.notices h'.notices

lemma isSome_name?_bind {s : Scope} {id x : NodeId} {text : String} :
    ((s.bind id text).name? x).isSome ↔ x = id ∨ (s.name? x).isSome := by
  rw [name?_bind]
  split <;> simp [*]

lemma extends_bind (s : Scope) (id : NodeId) (text : String) : Extends s (s.bind id text) :=
  { Extends.refl s with names := fun _ hx => isSome_name?_bind.2 (Or.inr hx) }

lemma extends_inline (s : Scope) (id : NodeId) (text : String) : Extends s (s.inline id text) :=
  { s.extends_bind id text with inlined := fun _ hx => List.mem_cons_of_mem _ hx }

lemma extends_note (s : Scope) (notice : Notice) : Extends s (s.note notice) :=
  { Extends.refl s with notices := List.subset_append_left _ _ }

lemma extends_touch (s : Scope) (source : String) : Extends s (s.touch source) :=
  { Extends.refl s with sources := fun _ hx => mem_insertNew.2 (Or.inr hx) }

lemma extends_require (s : Scope) (name : String) : Extends s (s.require name) :=
  { Extends.refl s with placeholders := fun _ hx => mem_insertNew.2 (Or.inr hx) }

variable {s s' : Scope}

lemma Records.mono {x : NodeId} (h : s.Records d x) (hg : Extends s s') : s'.Records d x where
  placeholder p hget := hg.placeholders (h.placeholder p hget)
  call e source className hget hcall :=
    ⟨hg.sources (h.call e source className hget hcall).1,
      hg.inlined (h.call e source className hget hcall).2⟩
  layer l hget hcall := (h.layer l hget hcall).imp (hg.names x)
    fun ⟨owner, a, hmem⟩ => ⟨owner, a, hg.notices hmem⟩

/-- A layer with a variable that is known or was noted. -/
lemma records_layer {x : NodeId} {l : Layer} (hget : d.get? x = some (.layer l))
    (hcall : inlineCall? (.layer l) = none)
    (h : (s.name? x).isSome ∨ ∃ owner a, .forwardReference owner a l ∈ s.notices) :
    s.Records d x where
  placeholder p hp := absurd (hget.symm.trans hp) (by simp)
  call e source className he hc := by
    obtain rfl : Entity.layer l = e := Option.some.inj (hget.symm.trans he)
    exact absurd (hcall.symm.trans hc) (by simp)
  layer l' hget' _ := by
    obtain rfl : l = l' := by simpa [hget] using hget'
    exact h

/-- With an entity whose expression is known, all that it leads to is recorded. -/
def Closed (d : Document) (s : Scope) : Prop :=
  ∀ id text, s.name? id = some text → ∀ x, Relation.ReflTransGen (Refers d) id x → s.Records d x

lemma closed_empty (d : Document) : Closed d {} := by
  intro id text h
  simp [name?] at h

lemma Closed.congr (h : s.Closed d) (heq : ∀ x, s'.name? x = s.name? x) (hg : Extends s s') :
    s'.Closed d := by
  intro id text hname x hx
  exact (h id text (by rw [← heq, hname]) x hx).mono hg

/-- Giving an entity an expression keeps a scope closed if all that it leads to is recorded. -/
lemma Closed.bind (h : s.Closed d) (id : NodeId) (text : String)
    (hrec : ∀ x, Relation.ReflTransGen (Refers d) id x → (s.bind id text).Records d x) :
    (s.bind id text).Closed d := by
  intro y text' hname x hx
  rw [name?_bind] at hname
  split at hname
  · rename_i hid
    exact hrec x (hid ▸ hx)
  · exact (h y text' hname x hx).mono (s.extends_bind id text)

end Scope

/-! ## Everything is recorded -/

lemma Renders.extends {piece : Piece} {s s' : Scope} {texts : List String}
    (h : Renders d trail owner piece s texts s') : s.Extends s' := by
  induction h with
  | noArgs => exact .refl _
  | arg _ _ _ ihfirst ihothers => exact ihfirst.trans ihothers
  | noItems => exact .refl _
  | literal _ _ ih => exact ih
  | item _ _ _ ihfirst ihothers => exact ihfirst.trans ihothers
  | known _ => exact .refl _
  | placeholder _ _ => exact (Scope.extends_require _ _).trans (Scope.extends_bind _ _ _)
  | forward _ _ _ => exact Scope.extends_note _ _
  | call _ _ _ _ _ ih =>
    exact ((Scope.extends_touch _ _).trans ih).trans (Scope.extends_inline _ _ _)

/-- **Nothing is missed.**  In a closed scope a successful rendering records all that the piece
involves, and leaves the scope closed. -/
theorem Renders.records {piece : Piece} {s s' : Scope} {texts : List String}
    (h : Renders d trail owner piece s texts s') (hs : s.Closed d) :
    s'.Closed d ∧ ∀ x, Involves d piece.references x → s'.Records d x := by
  induction h with
  | noArgs => exact ⟨hs, by simp [Involves, Piece.references, NetDiagram.references]⟩
  | arg _ _ hothers ihfirst ihothers =>
    obtain ⟨hs₁, hrec₁⟩ := ihfirst hs
    obtain ⟨hs₂, hrec₂⟩ := ihothers hs₁
    refine ⟨hs₂, fun x hx => ?_⟩
    rw [Piece.references_args_cons, involves_append] at hx
    exact hx.elim (fun hx => (hrec₁ x hx).mono hothers.extends) (hrec₂ x)
  | noItems => exact ⟨hs, by simp [Involves, Piece.references]⟩
  | literal hk _ ih => exact ⟨(ih hs).1, by simp [Involves, Piece.references, hk]⟩
  | item hk _ hothers ihfirst ihothers =>
    obtain ⟨hs₁, hrec₁⟩ := ihfirst hs
    obtain ⟨hs₂, hrec₂⟩ := ihothers hs₁
    refine ⟨hs₂, fun x hx => ?_⟩
    rw [Piece.references_items_cons hk, involves_append] at hx
    exact hx.elim (fun hx => (hrec₁ x hx).mono hothers.extends) (hrec₂ x)
  | known hname => exact ⟨hs, fun x hx => hs _ _ hname x (involves_singleton.1 hx)⟩
  | @placeholder _ _ _ id s p _ hget =>
    have hrec : ∀ x, Relation.ReflTransGen (Refers d) id x →
        ((s.require p.name).bind id ("self." ++ p.name)).Records d x := by
      intro x hx
      obtain rfl := eq_of_reaches_leaf hget rfl hx
      refine ⟨fun q hq => ?_, fun e source className he hc => ?_, fun l hl => ?_⟩
      · obtain rfl : p = q := by simpa [hget] using hq
        exact mem_insertNew.2 (Or.inl rfl)
      · obtain rfl : Entity.placeholder p = e := Option.some.inj (hget.symm.trans he)
        simp [inlineCall?] at hc
      · exact absurd (hget.symm.trans hl) (by simp)
    have hs₁ : (s.require p.name).Closed d := hs.congr (by simp) (s.extends_require p.name)
    exact ⟨hs₁.bind id _ hrec, fun x hx => hrec x (involves_singleton.1 hx)⟩
  | @forward _ owner a id s l _ hget hmode =>
    have hcall : inlineCall? (.layer l) = none := by simp [inlineCall?, hmode]
    refine ⟨hs.congr (by simp) (s.extends_note _), fun x hx => ?_⟩
    obtain rfl := eq_of_reaches_leaf hget hcall (involves_singleton.1 hx)
    exact Scope.records_layer hget hcall (Or.inr ⟨owner, a, by simp [Scope.note]⟩)
  | @call _ _ _ id s s₁ target source className args _ hget hcall _ hinner ih =>
    obtain ⟨hs₁, hrec₁⟩ := ih (hs.congr (by simp) (s.extends_touch source))
    have hext := s₁.extends_inline id (callText source className args)
    -- The call itself: its group was touched before its arguments were rendered.
    have hself : (s₁.inline id (callText source className args)).Records d id := by
      refine ⟨fun p hp => ?_, fun e source' className' he hc => ?_, fun l hl hnone => ?_⟩
      · obtain rfl : target = .placeholder p := Option.some.inj (hget.symm.trans hp)
        simp [inlineCall?] at hcall
      · obtain rfl : target = e := Option.some.inj (hget.symm.trans he)
        obtain ⟨rfl, rfl⟩ : source = source' ∧ className = className' := by
          simpa [hcall] using hc
        exact ⟨hinner.extends.sources (mem_insertNew.2 (Or.inl rfl)), List.mem_cons_self⟩
      · obtain rfl : target = .layer l := Option.some.inj (hget.symm.trans hl)
        simp [hcall] at hnone
    have hrec : ∀ x, Relation.ReflTransGen (Refers d) id x →
        (s₁.inline id (callText source className args)).Records d x := by
      intro x hx
      rcases (reaches_call_iff hget (by simp [hcall])).1 hx with rfl | hx
      · exact hself
      · exact (hrec₁ x hx).mono hext
    refine ⟨?_, fun x hx => hrec x (involves_singleton.1 hx)⟩
    -- What was known before the call was entered is recorded already.
    intro y text hname x hx
    rw [Scope.name?_inline, Scope.name?_bind] at hname
    split at hname
    · rename_i hid
      exact hrec x (hid ▸ hx)
    · exact (hs₁ y text hname x hx).mono hext

/-! ## Nothing else is recorded -/

/-- The second scope has, beside what the first one has, only what the ids in `X` leave, and
notices of forward references. -/
structure Scope.AddsOnly (d : Document) (X : NodeId → Prop) (s s' : Scope) : Prop where
  placeholders : ∀ name ∈ s'.placeholders, name ∈ s.placeholders ∨
    ∃ x p, X x ∧ d.get? x = some (.placeholder p) ∧ p.name = name
  sources : ∀ source ∈ s'.sources, source ∈ s.sources ∨
    ∃ x e className, X x ∧ d.get? x = some e ∧ inlineCall? e = some (source, className)
  inlined : ∀ x ∈ s'.inlined, x ∈ s.inlined ∨
    X x ∧ ∃ e, d.get? x = some e ∧ (inlineCall? e).isSome
  notices : ∀ n ∈ s'.notices, n ∈ s.notices ∨ ∃ owner a l, n = .forwardReference owner a l

namespace Scope.AddsOnly

variable {X Y : NodeId → Prop} {s s₁ s₂ : Scope}

lemma refl (X : NodeId → Prop) (s : Scope) : AddsOnly d X s s :=
  ⟨fun _ => Or.inl, fun _ => Or.inl, fun _ => Or.inl, fun _ => Or.inl⟩

lemma trans (h : AddsOnly d X s s₁) (h' : AddsOnly d X s₁ s₂) : AddsOnly d X s s₂ where
  placeholders name hname := (h'.placeholders name hname).elim (h.placeholders name) Or.inr
  sources source hsource := (h'.sources source hsource).elim (h.sources source) Or.inr
  inlined x hx := (h'.inlined x hx).elim (h.inlined x) Or.inr
  notices n hn := (h'.notices n hn).elim (h.notices n) Or.inr

lemma mono (h : AddsOnly d X s s₁) (hXY : ∀ x, X x → Y x) : AddsOnly d Y s s₁ where
  placeholders name hname := (h.placeholders name hname).imp_right
    fun ⟨x, p, hx, hget⟩ => ⟨x, p, hXY x hx, hget⟩
  sources source hsource := (h.sources source hsource).imp_right
    fun ⟨x, e, className, hx, hget⟩ => ⟨x, e, className, hXY x hx, hget⟩
  inlined x hx := (h.inlined x hx).imp_right fun ⟨hX, hget⟩ => ⟨hXY x hX, hget⟩
  notices := h.notices

end Scope.AddsOnly

/-- **Nothing is invented.**  A successful rendering records only what the piece involves. -/
theorem Renders.addsOnly {piece : Piece} {s s' : Scope} {texts : List String}
    (h : Renders d trail owner piece s texts s') :
    Scope.AddsOnly d (Involves d piece.references) s s' := by
  induction h with
  | noArgs => exact .refl _ _
  | arg _ _ _ ihfirst ihothers =>
    rw [Piece.references_args_cons]
    exact (ihfirst.mono fun x hx => involves_append.2 (Or.inl hx)).trans
      (ihothers.mono fun x hx => involves_append.2 (Or.inr hx))
  | noItems => exact .refl _ _
  | literal hk _ ih =>
    refine ih.mono fun x hx => ?_
    simp [Involves, Piece.references, hk] at hx
  | item hk _ _ ihfirst ihothers =>
    rw [Piece.references_items_cons hk]
    exact (ihfirst.mono fun x hx => involves_append.2 (Or.inl hx)).trans
      (ihothers.mono fun x hx => involves_append.2 (Or.inr hx))
  | known _ => exact .refl _ _
  | @placeholder _ _ _ id s p _ hget =>
    refine ⟨fun name hname => ?_, fun _ => Or.inl, fun _ => Or.inl, fun _ => Or.inl⟩
    rcases mem_insertNew.1 hname with rfl | hold
    · exact Or.inr ⟨id, p, involves_singleton.2 .refl, hget, rfl⟩
    · exact Or.inl hold
  | @forward _ owner a id s l _ _ _ =>
    refine ⟨fun _ => Or.inl, fun _ => Or.inl, fun _ => Or.inl, fun n hn => ?_⟩
    rcases List.mem_append.1 hn with hold | hnew
    · exact Or.inl hold
    · exact Or.inr ⟨owner, a, l, List.mem_singleton.1 hnew⟩
  | @call _ _ _ id s s₁ target source className args _ hget hcall _ _ ih =>
    have hinline : (inlineCall? target).isSome := by simp [hcall]
    have hself : Involves d [id] id := involves_singleton.2 .refl
    -- A call touches its group, renders its arguments, and is marked as inlined.
    have htouch : Scope.AddsOnly d (Involves d [id]) s (s.touch source) := by
      refine ⟨fun _ => Or.inl, fun x hx => ?_, fun _ => Or.inl, fun _ => Or.inl⟩
      rcases mem_insertNew.1 hx with rfl | hold
      · exact Or.inr ⟨id, target, className, hself, hget, hcall⟩
      · exact Or.inl hold
    have hmark : Scope.AddsOnly d (Involves d [id]) s₁
        (s₁.inline id (callText source className args)) := by
      refine ⟨fun _ => Or.inl, fun _ => Or.inl, fun x hx => ?_, fun _ => Or.inl⟩
      rcases List.mem_cons.1 hx with rfl | hold
      · exact Or.inr ⟨hself, target, hget, hinline⟩
      · exact Or.inl hold
    have hinner := ih.mono fun x hx =>
      involves_singleton.2 ((reaches_call_iff hget hinline).2 (Or.inr hx))
    exact (htouch.trans hinner).trans hmark

/-! ## The record of a list of statements -/

/-- The import group of an entity that has a statement of its own. -/
def statementSource? : Entity → Option String
  | .layer _ => some layerSource
  | .model _ => some modelSource
  | _ => none

/-- The statement of the entity needs the parameter of that name. -/
def NeedsPlaceholder (d : Document) (e : Entity) (name : String) : Prop :=
  ∃ x p, Involves d (references e.args) x ∧ d.get? x = some (.placeholder p) ∧ p.name = name

/-- The entity of the id is written inside the statement of `e`. -/
def Inlines (d : Document) (e : Entity) (x : NodeId) : Prop :=
  Involves d (references e.args) x ∧ ∃ e', d.get? x = some e' ∧ (inlineCall? e').isSome

/-- The statement of the entity needs the import group: its own, or that of something written
inside it. -/
def NeedsSource (d : Document) (e : Entity) (source : String) : Prop :=
  statementSource? e = some source ∨
    ∃ x e' className, Involves d (references e.args) x ∧ d.get? x = some e' ∧
      inlineCall? e' = some (source, className)

/-- The scope is what writing the statements of the given entities leaves: it gives the
expressions of the document, and it has recorded what these statements need and nothing else. -/
structure Scope.Accounts (d : Document) (es : List Entity) (s : Scope) : Prop where
  faithful : s.Faithful d
  closed : s.Closed d
  placeholders : ∀ name, name ∈ s.placeholders ↔ ∃ e ∈ es, NeedsPlaceholder d e name
  sources : ∀ source, source ∈ s.sources ↔ ∃ e ∈ es, NeedsSource d e source
  inlined : ∀ x, x ∈ s.inlined ↔ ∃ e ∈ es, Inlines d e x
  notices : ∀ n ∈ s.notices, ∃ owner a l, n = .forwardReference owner a l

namespace Scope

lemma accounts_empty (d : Document) : Accounts d [] {} :=
  ⟨faithful_empty d, closed_empty d, by simp, by simp, by simp, by simp⟩

variable {s s' : Scope} {es : List Entity}

lemma Accounts.bind_layer (h : s.Accounts d es) {l : Layer}
    (hget : d.get? l.id = some (.layer l)) (hmode : l.mode ≠ .ca) :
    (s.bind l.id l.var).Accounts d es := by
  have hcall := inlineCall?_layer_of_ne_ca hmode
  have hexpr : d.expression l.id = l.var := expressionWithin_leaf hget hcall
  refine ⟨?_, ?_, h.placeholders, h.sources, h.inlined, h.notices⟩
  · rw [← hexpr]
    exact h.faithful.bind (grounded_of_leaf hget hcall)
  · refine h.closed.bind l.id l.var fun x hx => ?_
    obtain rfl := eq_of_reaches_leaf hget hcall hx
    exact records_layer hget hcall (Or.inl (isSome_name?_bind.2 (Or.inl rfl)))

lemma exists_mem_snoc {e : Entity} {P : Entity → Prop} :
    (∃ x ∈ es ++ [e], P x) ↔ (∃ x ∈ es, P x) ∨ P e := by
  simp only [List.mem_append, List.mem_singleton, or_and_right, exists_or, exists_eq_left]

/-- Rendering the arguments of one more entity. -/
theorem Accounts.render (h : s.Accounts d es) {e : Entity} {source : String}
    {texts : List String} (hsource : statementSource? e = some source)
    (hr : Renders d [] e (.args e.args) (s.touch source) texts s') :
    s'.Accounts d (es ++ [e]) ∧ texts = e.args.map (argumentText d.expression) := by
  obtain ⟨hfaithful, -, htexts⟩ := hr.faithful (h.faithful.congr (by simp))
  have hgrows := hr.extends
  obtain ⟨hclosed, hrec⟩ := hr.records (h.closed.congr (by simp) (s.extends_touch source))
  have honly := hr.addsOnly
  -- From left to right nothing else was added; from right to left nothing is lost.
  refine ⟨⟨hfaithful, hclosed, fun name => ?_, fun group => ?_, fun x => ?_, fun n hn => ?_⟩,
    htexts⟩
  · rw [exists_mem_snoc, ← h.placeholders]
    constructor
    · intro hname
      exact honly.placeholders name hname
    · rintro (hold | ⟨x, p, hx, hget, rfl⟩)
      · exact hgrows.placeholders hold
      · exact (hrec x hx).placeholder p hget
  · rw [exists_mem_snoc, ← h.sources]
    constructor
    · intro hgroup
      rcases honly.sources group hgroup with hold | hnew
      · rcases mem_insertNew.1 hold with rfl | hold
        · exact Or.inr (Or.inl hsource)
        · exact Or.inl hold
      · exact Or.inr (Or.inr hnew)
    · rintro (hold | hown | ⟨x, e', className, hx, hget, hcall⟩)
      · exact hgrows.sources (mem_insertNew.2 (Or.inr hold))
      · obtain rfl : source = group := Option.some.inj (hsource.symm.trans hown)
        exact hgrows.sources (mem_insertNew.2 (Or.inl rfl))
      · exact ((hrec x hx).call e' group className hget hcall).1
  · rw [exists_mem_snoc, ← h.inlined]
    constructor
    · intro hx
      exact honly.inlined x hx
    · rintro (hold | ⟨hx, e', hget, hcall⟩)
      · exact hgrows.inlined hold
      · obtain ⟨⟨group, className⟩, hcall⟩ := Option.isSome_iff_exists.1 hcall
        exact ((hrec x hx).call e' group className hget hcall).2
  · exact (honly.notices n hn).elim (h.notices n) id

end Scope

end NetDiagram.Flow
