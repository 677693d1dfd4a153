import Mathlib.Tactic.Lemma
import NetDiagram.Flow.Scope

/-!
# Successful renderings

Rendering is a program in a monad: it reads and extends a `Scope`, and it may fail.  This file
says once what a successful run can do, as an inductive relation `Renders`, so that everything
that is proved about such runs is an induction over that relation.

A run renders a `Piece`: a list of arguments, a list of items of one argument, or a single
reference.  `Renders d trail owner piece s texts s'` says that rendering the piece, for the given
owner and with the given trail, turns the scope `s` into `s'` and gives the texts.  A reference
gives one text.

## Main statements

* `run_renderArgs_cons`, `run_renderItems_literal`, `run_renderItems_reference` and
  `run_renderReference` are the equations of the program, with its failures.
* `Piece.induction`: induction over what is rendered, by the recursion of the program.
* `Renders.of_run`: a run that succeeds is an instance of the relation.
* `renders_iff`: the relation holds exactly of the runs that succeed.
-/

namespace NetDiagram.Flow

variable {d : Document} {trail : List NodeId} {owner : Entity}

/-! ## The equations of the program -/

/-- How an item is written that refers to nothing. -/
def literalText : ArgClass → String → String
  | .str, item => Text.quote item
  | _, item => item

lemma run_renderArgs_nil (s : Scope) : (renderArgs d trail owner []).run s = .ok ([], s) := by
  rw [renderArgs]
  rfl

lemma run_renderArgs_cons (a : Argument) (rest : List Argument) (s : Scope) :
    (renderArgs d trail owner (a :: rest)).run s =
      if a.isUnset then .error (.missingArgument owner a)
      else
        match (renderItems d trail owner a (a.items.map Text.trim)).run s with
        | .error fault => .error fault
        | .ok (items, s₁) =>
          match (renderArgs d trail owner rest).run s₁ with
          | .error fault => .error fault
          | .ok (texts, s₂) => .ok ((a.name ++ "=" ++ bracket items) :: texts, s₂) := by
  rw [renderArgs]
  split
  · rfl
  · simp only [StateT.run_bind]
    cases (renderItems d trail owner a (a.items.map Text.trim)).run s with
    | error fault => rfl
    | ok r =>
      simp only [bind, Except.bind]
      cases (renderArgs d trail owner rest).run r.2 <;> rfl

lemma run_renderItems_nil (a : Argument) (s : Scope) :
    (renderItems d trail owner a []).run s = .ok ([], s) := by
  rw [renderItems]
  rfl

lemma run_renderItems_literal {a : Argument} (hk : a.kind ≠ .id) (item : String)
    (rest : List String) (s : Scope) :
    (renderItems d trail owner a (item :: rest)).run s =
      match (renderItems d trail owner a rest).run s with
      | .error fault => .error fault
      | .ok (texts, s') => .ok (literalText a.kind item :: texts, s') := by
  rw [renderItems]
  cases hkind : a.kind with
  | id => exact absurd hkind hk
  | _ =>
    simp only [StateT.run_bind, StateT.run_pure, pure_bind]
    cases (renderItems d trail owner a rest).run s <;> rfl

lemma run_renderItems_reference {a : Argument} (hk : a.kind = .id) (item : String)
    (rest : List String) (s : Scope) :
    (renderItems d trail owner a (item :: rest)).run s =
      match (renderReference d trail owner a (.ofText item)).run s with
      | .error fault => .error fault
      | .ok (text, s₁) =>
        match (renderItems d trail owner a rest).run s₁ with
        | .error fault => .error fault
        | .ok (texts, s₂) => .ok (text :: texts, s₂) := by
  rw [renderItems, hk]
  simp only [StateT.run_bind]
  cases (renderReference d trail owner a (.ofText item)).run s with
  | error fault => rfl
  | ok r =>
    simp only [bind, Except.bind]
    cases (renderItems d trail owner a rest).run r.2 <;> rfl

lemma run_renderReference (a : Argument) (id : NodeId) (s : Scope) :
    (renderReference d trail owner a id).run s =
      match s.name? id with
      | some text => .ok (text, s)
      | none =>
        match d.get? id with
        | none => .error (.danglingReference owner a id)
        | some target =>
          match inlineCall? target with
          | some (source, className) =>
            if id ∈ trail then .error (.cyclicReference (trail.filterMap d.get?) target)
            else
              match (renderArgs d (trail ++ [id]) target target.args).run (s.touch source) with
              | .error fault => .error fault
              | .ok (args, s₁) =>
                .ok (callText source className args, s₁.inline id (callText source className args))
          | none =>
            match target with
            | .placeholder p =>
              .ok ("self." ++ p.name, (s.require p.name).bind id ("self." ++ p.name))
            | .layer l => .ok (l.var, s.note (.forwardReference owner a l))
            | target => .error (.badReference owner a target) := by
  rw [renderReference]
  simp only [StateT.run_bind, StateT.run_get, pure_bind]
  cases hname : s.name? id with
  | some text => rfl
  | none =>
    cases hget : d.get? id with
    | none => rfl
    | some target =>
      dsimp only
      cases hcall : inlineCall? target with
      | none => cases target <;> rfl
      | some call =>
        obtain ⟨source, className⟩ := call
        dsimp only
        split
        · rfl
        · simp only [StateT.run_bind, StateT.run_modify, pure_bind]
          cases (renderArgs d (trail ++ [id]) target target.args).run (s.touch source) <;> rfl

/-! ## Pieces -/

/-- What a run renders. -/
inductive Piece where
  | args (as : List Argument)
  | items (a : Argument) (xs : List String)
  | reference (a : Argument) (id : NodeId)

/-- The run of a piece; a reference gives a list of one text. -/
def Piece.run (d : Document) (trail : List NodeId) (owner : Entity) :
    Piece → Scope → Except Fault (List String × Scope)
  | .args as, s => (renderArgs d trail owner as).run s
  | .items a xs, s => (renderItems d trail owner a xs).run s
  | .reference a id, s =>
    match (renderReference d trail owner a id).run s with
    | .error fault => .error fault
    | .ok (text, s') => .ok ([text], s')

/-- Induction over what is rendered, by the recursion of the program.  A reference leads to the
arguments of its target, unless the target is on the trail. -/
theorem Piece.induction {P : List NodeId → Entity → Piece → Prop}
    (noArgs : ∀ trail owner, P trail owner (.args []))
    (arg : ∀ trail owner a rest, P trail owner (.items a (a.items.map Text.trim)) →
      P trail owner (.args rest) → P trail owner (.args (a :: rest)))
    (noItems : ∀ trail owner a, P trail owner (.items a []))
    (literal : ∀ trail owner a item rest, a.kind ≠ .id → P trail owner (.items a rest) →
      P trail owner (.items a (item :: rest)))
    (item : ∀ trail owner a item rest, a.kind = .id → P trail owner (.reference a (.ofText item)) →
      P trail owner (.items a rest) → P trail owner (.items a (item :: rest)))
    (reference : ∀ trail owner a id, (∀ target, d.get? id = some target → id ∉ trail →
      P (trail ++ [id]) target (.args target.args)) → P trail owner (.reference a id))
    (trail : List NodeId) (owner : Entity) (piece : Piece) : P trail owner piece := by
  -- One motive for each of the three functions; four of the five kinds of items are literals.
  have hall := renderArgs.mutual_induct d (fun trail owner as => P trail owner (.args as))
    (fun trail owner a xs => P trail owner (.items a xs))
    (fun trail owner a id => P trail owner (.reference a id)) noArgs
    (fun trail owner a rest _ => arg trail owner a rest)
    (fun trail owner a rest _ => arg trail owner a rest) noItems
    (fun trail owner a x rest hk => literal trail owner a x rest (by simp [hk]))
    (fun trail owner a x rest hk => literal trail owner a x rest (by simp [hk]))
    (fun trail owner a x rest hk => literal trail owner a x rest (by simp [hk]))
    (fun trail owner a x rest hk => literal trail owner a x rest (by simp [hk]))
    (fun trail owner a x rest hk hrest href => item trail owner a x rest hk href hrest) reference
  cases piece with
  | args as => exact hall.1 trail owner as
  | items a xs => exact hall.2.1 trail owner a xs
  | reference a id => exact hall.2.2 trail owner a id

/-! ## The relation -/

/-- The successful runs of the program, one rule for each of its branches. -/
inductive Renders (d : Document) :
    List NodeId → Entity → Piece → Scope → List String → Scope → Prop
  | noArgs {trail : List NodeId} {owner : Entity} {s : Scope} :
      Renders d trail owner (.args []) s [] s
  | arg {trail : List NodeId} {owner : Entity} {a : Argument} {rest : List Argument}
      {s s₁ s₂ : Scope} {items texts : List String} (set : a.isUnset = false)
      (first : Renders d trail owner (.items a (a.items.map Text.trim)) s items s₁)
      (others : Renders d trail owner (.args rest) s₁ texts s₂) :
      Renders d trail owner (.args (a :: rest)) s ((a.name ++ "=" ++ bracket items) :: texts) s₂
  | noItems {trail : List NodeId} {owner : Entity} {a : Argument} {s : Scope} :
      Renders d trail owner (.items a []) s [] s
  | literal {trail : List NodeId} {owner : Entity} {a : Argument} {item : String}
      {rest texts : List String} {s s' : Scope} (kind : a.kind ≠ .id)
      (others : Renders d trail owner (.items a rest) s texts s') :
      Renders d trail owner (.items a (item :: rest)) s (literalText a.kind item :: texts) s'
  | item {trail : List NodeId} {owner : Entity} {a : Argument} {item text : String}
      {rest texts : List String} {s s₁ s₂ : Scope} (kind : a.kind = .id)
      (first : Renders d trail owner (.reference a (.ofText item)) s [text] s₁)
      (others : Renders d trail owner (.items a rest) s₁ texts s₂) :
      Renders d trail owner (.items a (item :: rest)) s (text :: texts) s₂
  /-- The entity has an expression. -/
  | known {trail : List NodeId} {owner : Entity} {a : Argument} {id : NodeId} {s : Scope}
      {text : String} (name : s.name? id = some text) :
      Renders d trail owner (.reference a id) s [text] s
  | placeholder {trail : List NodeId} {owner : Entity} {a : Argument} {id : NodeId} {s : Scope}
      {p : Placeholder} (name : s.name? id = none) (get : d.get? id = some (.placeholder p)) :
      Renders d trail owner (.reference a id) s ["self." ++ p.name]
        ((s.require p.name).bind id ("self." ++ p.name))
  /-- A layer with a variable whose statement has not been written. -/
  | forward {trail : List NodeId} {owner : Entity} {a : Argument} {id : NodeId} {s : Scope}
      {l : Layer} (name : s.name? id = none) (get : d.get? id = some (.layer l))
      (mode : l.mode.isMaterialized = true) :
      Renders d trail owner (.reference a id) s [l.var] (s.note (.forwardReference owner a l))
  /-- A unit or an inline layer that is written for the first time. -/
  | call {trail : List NodeId} {owner : Entity} {a : Argument} {id : NodeId} {s s₁ : Scope}
      {target : Entity} {source className : String} {args : List String}
      (name : s.name? id = none) (get : d.get? id = some target)
      (inline : inlineCall? target = some (source, className)) (new : id ∉ trail)
      (inner : Renders d (trail ++ [id]) target (.args target.args) (s.touch source) args s₁) :
      Renders d trail owner (.reference a id) s [callText source className args]
        (s₁.inline id (callText source className args))

lemma isMaterialized_of_inlineCall? {l : Layer} (h : inlineCall? (.layer l) = none) :
    l.mode.isMaterialized = true := by
  cases hm : l.mode with
  | ca => simp [inlineCall?, hm, Mode.isMaterialized] at h
  | _ => rfl

lemma inlineCall?_layer_of_ne_ca {l : Layer} (h : l.mode ≠ .ca) :
    inlineCall? (.layer l) = none := by
  cases hm : l.mode with
  | ca => exact absurd hm h
  | _ => simp [inlineCall?, hm, Mode.isMaterialized]

/-- What is written as a call, with its import group and its class: a unit or an inline layer. -/
inductive IsCall : Entity → String → String → Prop
  | unit (u : UnitSpec) : IsCall (.unit u) u.source u.className
  | inline {l : Layer} (mode : l.mode = .ca) : IsCall (.layer l) layerSource l.className

lemma inlineCall?_eq_some_iff {e : Entity} {source className : String} :
    inlineCall? e = some (source, className) ↔ IsCall e source className := by
  constructor
  · intro h
    cases e with
    | unit u =>
      obtain ⟨rfl, rfl⟩ : u.source = source ∧ u.className = className := by
        simpa [inlineCall?] using h
      exact .unit u
    | layer l =>
      by_cases hmode : l.mode = .ca
      · obtain ⟨rfl, rfl⟩ : layerSource = source ∧ l.className = className := by
          simpa [inlineCall?, hmode, Mode.isMaterialized] using h
        exact .inline hmode
      · simp [inlineCall?_layer_of_ne_ca hmode] at h
    | _ => simp [inlineCall?] at h
  · rintro (u | mode)
    · rfl
    · simp [inlineCall?, mode, Mode.isMaterialized]

/-! ## Runs that succeed -/

/-- A list of arguments, given the rules for its items and for the shorter list. -/
lemma Renders.of_run_args {a : Argument} {rest : List Argument}
    (hitems : ∀ s items s', (renderItems d trail owner a (a.items.map Text.trim)).run s =
      .ok (items, s') → Renders d trail owner (.items a (a.items.map Text.trim)) s items s')
    (hrest : ∀ s texts s', (renderArgs d trail owner rest).run s = .ok (texts, s') →
      Renders d trail owner (.args rest) s texts s')
    {s s' : Scope} {texts : List String}
    (h : (renderArgs d trail owner (a :: rest)).run s = .ok (texts, s')) :
    Renders d trail owner (.args (a :: rest)) s texts s' := by
  rw [run_renderArgs_cons] at h
  split at h
  · exact absurd h (by simp)
  · rename_i hset
    split at h
    · exact absurd h (by simp)
    · rename_i items s₁ hfirst
      split at h
      · exact absurd h (by simp)
      · rename_i texts₂ s₂ hothers
        simp only [Except.ok.injEq, Prod.mk.injEq] at h
        rw [← h.1, ← h.2]
        exact .arg (by simpa using hset) (hitems _ _ _ hfirst) (hrest _ _ _ hothers)

lemma Renders.of_run_items {a : Argument} {item : String} {rest : List String}
    (href : a.kind = .id → ∀ s text s', (renderReference d trail owner a (.ofText item)).run s =
      .ok (text, s') → Renders d trail owner (.reference a (.ofText item)) s [text] s')
    (hrest : ∀ s texts s', (renderItems d trail owner a rest).run s = .ok (texts, s') →
      Renders d trail owner (.items a rest) s texts s')
    {s s' : Scope} {texts : List String}
    (h : (renderItems d trail owner a (item :: rest)).run s = .ok (texts, s')) :
    Renders d trail owner (.items a (item :: rest)) s texts s' := by
  by_cases hk : a.kind = .id
  · rw [run_renderItems_reference hk] at h
    split at h
    · exact absurd h (by simp)
    · rename_i text s₁ hfirst
      split at h
      · exact absurd h (by simp)
      · rename_i texts₂ s₂ hothers
        simp only [Except.ok.injEq, Prod.mk.injEq] at h
        rw [← h.1, ← h.2]
        exact .item hk (href hk _ _ _ hfirst) (hrest _ _ _ hothers)
  · rw [run_renderItems_literal hk] at h
    split at h
    · exact absurd h (by simp)
    · rename_i texts₂ s₂ hothers
      simp only [Except.ok.injEq, Prod.mk.injEq] at h
      rw [← h.1, ← h.2]
      exact .literal hk (hrest _ _ _ hothers)

lemma Renders.of_run_reference {a : Argument} {id : NodeId}
    (hargs : ∀ target, d.get? id = some target → id ∉ trail → ∀ s texts s',
      (renderArgs d (trail ++ [id]) target target.args).run s = .ok (texts, s') →
        Renders d (trail ++ [id]) target (.args target.args) s texts s')
    {s s' : Scope} {text : String}
    (h : (renderReference d trail owner a id).run s = .ok (text, s')) :
    Renders d trail owner (.reference a id) s [text] s' := by
  rw [run_renderReference] at h
  cases hname : s.name? id with
  | some known =>
    simp only [hname, Except.ok.injEq, Prod.mk.injEq] at h
    rw [← h.1, ← h.2]
    exact .known hname
  | none =>
    cases hget : d.get? id with
    | none => simp [hname, hget] at h
    | some target =>
      cases hcall : inlineCall? target with
      | some call =>
        obtain ⟨source, className⟩ := call
        simp only [hname, hget, hcall] at h
        split at h
        · exact absurd h (by simp)
        · rename_i hnew
          split at h
          · exact absurd h (by simp)
          · rename_i args s₁ hinner
            simp only [Except.ok.injEq, Prod.mk.injEq] at h
            rw [← h.1, ← h.2]
            exact .call hname hget hcall hnew (hargs target hget hnew _ _ _ hinner)
      | none =>
        cases target with
        | placeholder p =>
          simp only [hname, hget, hcall, Except.ok.injEq, Prod.mk.injEq] at h
          rw [← h.1, ← h.2]
          exact .placeholder hname hget
        | layer l =>
          simp only [hname, hget, hcall, Except.ok.injEq, Prod.mk.injEq] at h
          rw [← h.1, ← h.2]
          exact .forward hname hget (isMaterialized_of_inlineCall? hcall)
        | model m => simp [hname, hget, hcall] at h
        | unit u => simp [inlineCall?] at hcall
        | note n => simp [hname, hget, hcall] at h

/-- **Successful runs.**  A run that succeeds follows the rules. -/
theorem Renders.of_run {piece : Piece} {s s' : Scope} {texts : List String}
    (h : piece.run d trail owner s = .ok (texts, s')) :
    Renders d trail owner piece s texts s' := by
  -- The induction follows the recursion of the renderer, in which the trail grows.
  induction trail, owner, piece using Piece.induction (d := d) generalizing s texts s' with
  | noArgs trail owner =>
    rw [Piece.run, run_renderArgs_nil] at h
    cases h
    exact .noArgs
  | arg trail owner a rest ihitems ihrest =>
    exact .of_run_args (fun _ _ _ => ihitems) (fun _ _ _ => ihrest) h
  | noItems trail owner a =>
    rw [Piece.run, run_renderItems_nil] at h
    cases h
    exact .noItems
  | literal trail owner a item rest hk ihrest =>
    exact .of_run_items (fun hid => absurd hid hk) (fun _ _ _ => ihrest) h
  | item trail owner a item rest hk ihreference ihrest =>
    refine .of_run_items (fun _ s text s' hrun => ihreference ?_) (fun _ _ _ => ihrest) h
    rw [Piece.run, hrun]
  | reference trail owner a id ihargs =>
    simp only [Piece.run] at h
    split at h
    · exact absurd h (by simp)
    · rename_i text s₁ hrun
      simp only [Except.ok.injEq, Prod.mk.injEq] at h
      rw [← h.1, ← h.2]
      exact .of_run_reference (fun target hget hnew _ _ _ => ihargs target hget hnew) hrun

/-- A run of the arguments of an entity that succeeds follows the rules. -/
theorem Renders.of_renderArgs {args : List Argument} {s s' : Scope} {texts : List String}
    (h : (renderArgs d trail owner args).run s = .ok (texts, s')) :
    Renders d trail owner (.args args) s texts s' :=
  .of_run (show (Piece.args args).run d trail owner s = .ok (texts, s') from h)

lemma run_renderReference_of_piece {a : Argument} {id : NodeId} {s s' : Scope} {text : String}
    (h : (Piece.reference a id).run d trail owner s = .ok ([text], s')) :
    (renderReference d trail owner a id).run s = .ok (text, s') := by
  simp only [Piece.run] at h
  split at h
  · exact absurd h (by simp)
  · rename_i text' s₁ hrun
    simp only [Except.ok.injEq, Prod.mk.injEq, List.cons.injEq, and_true] at h
    rw [hrun, h.1, h.2]

lemma Renders.run {piece : Piece} {s s' : Scope} {texts : List String}
    (h : Renders d trail owner piece s texts s') :
    piece.run d trail owner s = .ok (texts, s') := by
  induction h with
  | noArgs => exact run_renderArgs_nil _
  | arg set _ _ ihfirst ihothers =>
    simp only [Piece.run] at ihfirst ihothers ⊢
    simp only [run_renderArgs_cons, set, Bool.false_eq_true, if_false, ihfirst, ihothers]
  | noItems => exact run_renderItems_nil _ _
  | literal kind _ ih =>
    simp only [Piece.run] at ih ⊢
    simp only [run_renderItems_literal kind, ih]
  | item kind _ _ ihfirst ihothers =>
    have hfirst := run_renderReference_of_piece ihfirst
    simp only [Piece.run] at ihothers ⊢
    simp only [run_renderItems_reference kind, hfirst, ihothers]
  | known name => simp only [Piece.run, run_renderReference, name]
  | placeholder name get => simp only [Piece.run, run_renderReference, name, get, inlineCall?]
  | @forward _ _ _ _ _ l name get mode =>
    have hcall : inlineCall? (.layer l) = none := by simp [inlineCall?, mode]
    simp only [Piece.run, run_renderReference, name, get, hcall]
  | call name get inline new _ ih =>
    simp only [Piece.run] at ih ⊢
    simp only [run_renderReference, name, get, inline, if_neg new, ih]

/-- **The relation is the program.**  A piece is rendered by the rules exactly if its run succeeds
with that result. -/
theorem renders_iff {piece : Piece} {s s' : Scope} {texts : List String} :
    Renders d trail owner piece s texts s' ↔ piece.run d trail owner s = .ok (texts, s') :=
  ⟨Renders.run, Renders.of_run⟩

end NetDiagram.Flow
