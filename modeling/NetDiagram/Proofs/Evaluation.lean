import NetDiagram.Proofs.Rendering
import NetDiagram.Proofs.Walk

/-!
# Running a document

Rendering follows references, and that it ends takes a proof; such a recursion is not evaluated
inside Lean.  This file has a bounded form of it, by recursion on a number, and runs documents
with it.  Only the runs that succeed are given, and nothing is said about those that do not: a
bound that is too small, or a fault, gives no result.

## Main statements

* `Piece.renders_of_evaluate`: what the bounded form gives is a successful rendering.
* `Walk.Reached.evaluate`: what steps with the bounded form lead to occurs in the compilation.
* `compile_of_evaluate`: the result of a checked document that is run to its end.
-/

namespace NetDiagram.Flow

variable {d : Document}

/-! ## Rendering with a bound -/

/-- The result of rendering a piece, if the recursion is not deeper than the given number. -/
def Piece.evaluate (d : Document) :
    Nat → List NodeId → Entity → Piece → Scope → Option (List String × Scope)
  | 0, _, _, _, _ => none
  | _ + 1, _, _, .args [], s => some ([], s)
  | k + 1, trail, owner, .args (a :: rest), s =>
    match a.isUnset with
    | true => none
    | false =>
      match Piece.evaluate d k trail owner (.items a (a.items.map Text.trim)) s with
      | none => none
      | some (values, s₁) =>
        match Piece.evaluate d k trail owner (.args rest) s₁ with
        | none => none
        | some (texts, s₂) => some ((a.name ++ "=" ++ bracket values) :: texts, s₂)
  | _ + 1, _, _, .items _ [], s => some ([], s)
  | k + 1, trail, owner, .items a (item :: rest), s =>
    if a.kind = .id then
      match Piece.evaluate d k trail owner (.reference a (.ofText item)) s with
      | some ([text], s₁) =>
        match Piece.evaluate d k trail owner (.items a rest) s₁ with
        | none => none
        | some (texts, s₂) => some (text :: texts, s₂)
      | _ => none
    else
      match Piece.evaluate d k trail owner (.items a rest) s with
      | none => none
      | some (texts, s') => some (literalText a.kind item :: texts, s')
  | k + 1, trail, owner, .reference a id, s =>
    match s.name? id with
    | some text => some ([text], s)
    | none =>
      match d.get? id with
      | none => none
      | some target =>
        match inlineCall? target with
        | some (source, className) =>
          if id ∈ trail then none
          else
            match Piece.evaluate d k (trail ++ [id]) target (.args target.args)
                (s.touch source) with
            | none => none
            | some (inner, s₁) =>
              some ([callText source className inner],
                s₁.inline id (callText source className inner))
        | none =>
          match target with
          | .placeholder p =>
            some (["self." ++ p.name], (s.require p.name).bind id ("self." ++ p.name))
          | .layer l => some ([l.var], s.note (.forwardReference owner a l))
          | _ => none

section Soundness

variable {k : Nat} {trail : List NodeId} {owner : Entity} {s s' : Scope} {texts : List String}
  (ih : ∀ {trail : List NodeId} {owner : Entity} {piece : Piece} {s s' : Scope}
    {texts : List String}, piece.evaluate d k trail owner s = some (texts, s') →
      Renders d trail owner piece s texts s')

include ih

/-- A list of arguments, if the bounded form is sound one level below. -/
lemma renders_of_evaluate_args {args : List Argument}
    (h : (Piece.args args).evaluate d (k + 1) trail owner s = some (texts, s')) :
    Renders d trail owner (.args args) s texts s' := by
  match args with
  | [] =>
    simp only [Piece.evaluate, Option.some.injEq, Prod.mk.injEq] at h
    rw [← h.1, ← h.2]
    exact .noArgs
  | a :: rest =>
    simp only [Piece.evaluate] at h
    split at h
    · simp at h
    · rename_i hset
      split at h
      · simp at h
      · rename_i values s₁ hvalues
        split at h
        · simp at h
        · rename_i texts₂ s₂ hrest
          simp only [Option.some.injEq, Prod.mk.injEq] at h
          rw [← h.1, ← h.2]
          exact .arg hset (ih hvalues) (ih hrest)

lemma renders_of_evaluate_items {a : Argument} {items : List String}
    (h : (Piece.items a items).evaluate d (k + 1) trail owner s = some (texts, s')) :
    Renders d trail owner (.items a items) s texts s' := by
  match items with
  | [] =>
    simp only [Piece.evaluate, Option.some.injEq, Prod.mk.injEq] at h
    rw [← h.1, ← h.2]
    exact .noItems
  | item :: rest =>
    simp only [Piece.evaluate] at h
    split at h
    · rename_i hk
      split at h
      · rename_i text s₁ hfirst
        split at h
        · simp at h
        · rename_i texts₂ s₂ hrest
          simp only [Option.some.injEq, Prod.mk.injEq] at h
          rw [← h.1, ← h.2]
          exact .item hk (ih hfirst) (ih hrest)
      · simp at h
    · rename_i hk
      split at h
      · simp at h
      · rename_i texts₂ s₂ hrest
        simp only [Option.some.injEq, Prod.mk.injEq] at h
        rw [← h.1, ← h.2]
        exact .literal hk (ih hrest)

lemma renders_of_evaluate_reference {a : Argument} {id : NodeId}
    (h : (Piece.reference a id).evaluate d (k + 1) trail owner s = some (texts, s')) :
    Renders d trail owner (.reference a id) s texts s' := by
  simp only [Piece.evaluate] at h
  split at h
  · rename_i hname
    simp only [Option.some.injEq, Prod.mk.injEq] at h
    rw [← h.1, ← h.2]
    exact .known hname
  · rename_i hname
    split at h
    · simp at h
    · rename_i target hget
      split at h
      · rename_i source className hcall
        split at h
        · simp at h
        · rename_i hnew
          split at h
          · simp at h
          · rename_i inner s₁ hinner
            simp only [Option.some.injEq, Prod.mk.injEq] at h
            rw [← h.1, ← h.2]
            exact .call hname hget hcall hnew (ih hinner)
      · rename_i hcall
        split at h
        · simp only [Option.some.injEq, Prod.mk.injEq] at h
          rw [← h.1, ← h.2]
          exact .placeholder hname hget
        · simp only [Option.some.injEq, Prod.mk.injEq] at h
          rw [← h.1, ← h.2]
          exact .forward hname hget (isMaterialized_of_inlineCall? hcall)
        · simp at h

end Soundness

/-- **Soundness.**  What the bounded form gives is a successful rendering. -/
theorem Piece.renders_of_evaluate {k : Nat} {trail : List NodeId} {owner : Entity}
    {piece : Piece} {s s' : Scope} {texts : List String}
    (h : piece.evaluate d k trail owner s = some (texts, s')) :
    Renders d trail owner piece s texts s' := by
  induction k generalizing trail owner piece s s' texts with
  | zero => simp [Piece.evaluate] at h
  | succ k ih =>
    cases piece with
    | args args => exact renders_of_evaluate_args ih h
    | items a items => exact renders_of_evaluate_items ih h
    | reference a id => exact renders_of_evaluate_reference ih h

/-! ## Steps with a bound -/

/-- Writes the statement of a layer. -/
def Draft.evaluateLayer (d : Document) (k : Nat) (t : Draft) (l : Layer) (call : Option String) :
    Option Draft :=
  match (Piece.args l.args).evaluate d k [] (.layer l) (t.scope.touch layerSource) with
  | none => none
  | some (args, scope) =>
    some
      { t with
        scope := scope.bind l.id l.var
        statements := t.statements ++
          [⟨l.var, layerSource, l.className, ", ".intercalate args, call⟩]
        emitted := t.emitted ++ [l.id] }

/-- Writes the statement of a model. -/
def Draft.evaluateModel (d : Document) (k : Nat) (t : Draft) (m : Model) : Option Draft :=
  match (Piece.args m.args).evaluate d k [] (.model m) (t.scope.touch modelSource) with
  | none => none
  | some (args, scope) =>
    some
      { t with
        scope := scope
        statements := t.statements ++
          [⟨m.var, modelSource, m.className, ", ".intercalate args, none⟩]
        endpoints := t.endpoints ++ [m.var]
        emitted := t.emitted ++ [m.id] }

lemma Draft.writeLayer_of_evaluate {k : Nat} {t t' : Draft} {l : Layer} {call : Option String}
    (h : evaluateLayer d k t l call = some t') : writeLayer d t l call = .ok t' := by
  unfold evaluateLayer at h
  split at h
  · simp at h
  · rename_i args scope hargs
    have hrun := (Piece.renders_of_evaluate hargs).run
    simp only [Piece.run] at hrun
    simpa only [writeLayer, hrun, Except.ok.injEq, Option.some.injEq] using h

lemma Draft.writeModel_of_evaluate {k : Nat} {t t' : Draft} {m : Model}
    (h : evaluateModel d k t m = some t') : writeModel d t m = .ok t' := by
  unfold evaluateModel at h
  split at h
  · simp at h
  · rename_i args scope hargs
    have hrun := (Piece.renders_of_evaluate hargs).run
    simp only [Piece.run] at hrun
    simpa only [writeModel, hrun, Except.ok.injEq, Option.some.injEq] using h

namespace Walk

/-- Follows a connection. -/
def evaluateVisit (d : Document) (k : Nat) (t : Draft) (p : Layer) (id : NodeId) :
    Option (List (Layer × NodeId) × Draft) :=
  match d.get? id with
  | some (.model m) =>
    match Draft.roleIds m Model.inputsName, Draft.roleIds m Model.outputsName with
    | .ok inputs, .ok outputs =>
      match (t.ledger.register m.id [inputs, outputs]).arrive m.id p.id with
      | (.satisfied, ledger) =>
        (Draft.evaluateModel d k { t with ledger := ledger } m).map fun t' => ([], t')
      | (.pending, ledger) => some ([], { t with ledger := ledger })
      | (.undeclared, _) => none
    | _, _ => none
  | some (.layer l) =>
    if l.mode = .ca then none
    else
      match Draft.reachLayer d t p l with
      | .error _ => none
      | .ok (ledger, none) => some ([], { t with ledger := ledger })
      | .ok (ledger, some call) =>
        (Draft.evaluateLayer d k { t with ledger := ledger } l (some call)).map
          fun t' => (connections l, t')
  | _ => none

lemma visit_of_evaluate {k : Nat} {t t' : Draft} {p : Layer} {id : NodeId}
    {new : List (Layer × NodeId)} (h : evaluateVisit d k t p id = some (new, t')) :
    visit d t p id = .ok (new, t') := by
  -- The evaluation branches as the program does, and has no result where the program fails.
  unfold evaluateVisit at h
  split at h
  · rename_i m hget
    split at h
    · rename_i inputs outputs hinputs houtputs
      split at h
      · rename_i ledger harrive
        obtain ⟨t₁, hmodel, heq⟩ := Option.map_eq_some_iff.1 h
        have hwrite := Draft.writeModel_of_evaluate hmodel
        simp only [visit, hget, Draft.reachModel, hinputs, houtputs, harrive, hwrite, heq]
      · rename_i ledger harrive
        simp only [visit, hget, Draft.reachModel, hinputs, houtputs, harrive, Option.some.inj h]
      · simp at h
    · simp at h
  · rename_i l hget
    split at h
    · simp at h
    · rename_i hmode
      split at h
      · simp at h
      · rename_i hreach
        simp only [visit, hget, if_neg hmode, hreach, Option.some.inj h]
      · rename_i ledger call hreach
        obtain ⟨t₁, hlayer, heq⟩ := Option.map_eq_some_iff.1 h
        have hwrite := Draft.writeLayer_of_evaluate hlayer
        simp only [visit, hget, if_neg hmode, hreach, hwrite, heq]
  · simp at h

/-- The next step. -/
def evaluateNext (d : Document) (k : Nat) : Walk → Option Walk
  | ⟨entrances, (p, id) :: rest, t⟩ =>
    (evaluateVisit d k t p id).map fun (new, t') => ⟨entrances, new ++ rest, t'⟩
  | ⟨l :: entrances, [], t⟩ =>
    if l.mode = .ca then none
    else if l.id ∈ t.emitted then some ⟨entrances, [], t⟩
    else (Draft.evaluateLayer d k t l none).map fun t' => ⟨entrances, connections l, t'⟩
  | ⟨[], [], t⟩ => some ⟨[], [], t⟩

lemma next_of_evaluate {k : Nat} {w w' : Walk} (h : w.evaluateNext d k = some w') :
    w.next d = .ok w' := by
  obtain ⟨entrances, links, t⟩ := w
  cases links with
  | cons link rest =>
    obtain ⟨⟨new, t'⟩, hvisit, rfl⟩ := Option.map_eq_some_iff.1 h
    simp only [next, visit_of_evaluate hvisit]
  | nil =>
    cases entrances with
    | nil =>
      simp only [evaluateNext, Option.some.injEq] at h
      simp only [next, h]
    | cons l entrances =>
      simp only [evaluateNext] at h
      split at h
      · simp at h
      · rename_i hmode
        split at h
        · rename_i hold
          simp only [next, if_neg hmode, if_pos hold, Option.some.inj h]
        · rename_i hnew
          obtain ⟨t', hlayer, rfl⟩ := Option.map_eq_some_iff.1 h
          have hwrite := Draft.writeLayer_of_evaluate hlayer
          simp only [next, if_neg hmode, if_neg hnew, hwrite]

/-- Takes a number of steps. -/
def evaluate (d : Document) (k : Nat) : Nat → Walk → Option Walk
  | 0, w => some w
  | n + 1, w => (w.evaluateNext d k).bind (evaluate d k n)

/-- What a number of steps lead to occurs in the compilation of the document. -/
theorem Reached.evaluate {k n : Nat} {w w' : Walk} (h : Reached d w)
    (hrun : w.evaluate d k n = some w') : Reached d w' := by
  induction n generalizing w with
  | zero =>
    rw [Walk.evaluate, Option.some.injEq] at hrun
    rwa [← hrun]
  | succ n ih =>
    obtain ⟨w₁, hnext, hrest⟩ := Option.bind_eq_some_iff.1 hrun
    exact ih (h.next (next_of_evaluate hnext)) hrest

end Walk

/-! ## Compilations -/

/-- The result of a document whose walk ends within `n` steps. -/
def evaluate (d : Document) (k n : Nat) : Option Compilation :=
  match (Walk.start d).evaluate d k n with
  | some ⟨[], [], t⟩ => some (t.finish d)
  | _ => none

/-- **Runs to the end.**  The result of a checked document is the one of its steps. -/
theorem compile_of_evaluate {k n : Nat} {c : Compilation} (hvalid : validate d = .ok ())
    (h : evaluate d k n = some c) : compile d = .ok c := by
  unfold evaluate at h
  split at h
  · rename_i t hend
    rw [Option.some.injEq] at h
    rw [← h]
    exact compile_of_reached hvalid (Walk.Reached.start.evaluate hend)
  · simp at h

end NetDiagram.Flow
