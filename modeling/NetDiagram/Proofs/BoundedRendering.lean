import Mathlib.Tactic.Lemma
import NetDiagram.Flow.Scope

/-!
# Rendering with a bound on nested calls

Rendering follows references from call to call, and it ends because a call is not entered again
while it is being written.  This file makes the bound explicit.  `renderWithin d n` renders with at
most `n` calls inside one another: it recurses on that number, and has no result (`none`) where one
call more would have to be entered.

A bound that covers the calls that are not on the trail is never used up, so the bounded program is
the program (`renderWithin_eq`).  From the empty trail these are all units and inline layers of the
document, `callees`.

## Main definitions

* `Bounded`: the programs that read and extend a scope, may fail, and may run out of calls.
* `renderWithin`: rendering with at most so many nested calls.

## Main statements

* `renderBy_eq`: rendering as a loop over arguments and items, if inner calls are right.
* `renderWithin_eq`: a bound that covers the calls off the trail is enough.
-/

namespace NetDiagram.Flow

/-! ## Programs that may run out of calls -/

/-- A rendering that may fail, or have no result because its bound is used up. -/
abbrev Bounded :=
  StateT Scope (ExceptT Fault Option)

namespace Bounded

variable {α β : Type}

/-- The program that has used up its bound. -/
def exhausted : Bounded α :=
  fun _ => ExceptT.mk none

/-- A rendering without a bound, which always has a result. -/
def unlimited (x : Rendering α) : Bounded α :=
  fun s => ExceptT.mk (some (x.run s))

@[simp] lemma unlimited_pure (a : α) : unlimited (pure a : Rendering α) = pure a :=
  rfl

@[simp] lemma unlimited_throw (fault : Fault) :
    unlimited (throw fault : Rendering α) = throw fault :=
  rfl

@[simp] lemma unlimited_get : unlimited (get : Rendering Scope) = get :=
  rfl

@[simp] lemma unlimited_modify (f : Scope → Scope) :
    unlimited (modify f : Rendering PUnit) = modify f :=
  rfl

@[simp] lemma unlimited_bind (x : Rendering α) (f : α → Rendering β) :
    unlimited (x >>= f) = unlimited x >>= fun a => unlimited (f a) := by
  funext s
  change ExceptT.mk (some ((x >>= f).run s)) =
    ExceptT.bind (ExceptT.mk (some (x.run s))) fun p => unlimited (f p.1) p.2
  rw [StateT.run_bind]
  cases x.run s <;> rfl

@[simp] lemma unlimited_map (f : α → β) (x : Rendering α) :
    unlimited (f <$> x) = f <$> unlimited x := by
  rw [map_eq_pure_bind, map_eq_pure_bind, unlimited_bind]
  rfl

end Bounded

open Bounded

variable {d : Document} {trail : List NodeId}

/-! ## The loops over arguments and items -/

/-- Renders a reference; the arguments of a call are rendered by the given program. -/
def renderReferenceBy (d : Document) (inner : List NodeId → Entity → Bounded (List String))
    (trail : List NodeId) (owner : Entity) (a : Argument) (id : NodeId) : Bounded String := do
  match (← get).name? id with
  | some text => pure text
  | none =>
    match d.get? id with
    | none => throw (.danglingReference owner a id)
    | some target =>
      match inlineCall? target with
      | some (source, className) =>
        if id ∈ trail then throw (.cyclicReference (trail.filterMap d.get?) target)
        else
          modify (·.touch source)
          let args ← inner (trail ++ [id]) target
          modify (·.inline id (callText source className args))
          pure (callText source className args)
      | none =>
        match target with
        | .placeholder p =>
          modify fun s => (s.require p.name).bind id ("self." ++ p.name)
          pure ("self." ++ p.name)
        | .layer l =>
          modify (·.note (.forwardReference owner a l))
          pure l.var
        | _ => throw (.badReference owner a target)

/-- Renders an item of an argument. -/
def renderItemBy (d : Document) (inner : List NodeId → Entity → Bounded (List String))
    (trail : List NodeId) (owner : Entity) (a : Argument) (item : String) : Bounded String :=
  match a.kind with
  | .str => pure (Text.quote item)
  | .num | .seq | .bool => pure item
  | .id => renderReferenceBy d inner trail owner a (NodeId.ofText item)

/-- Renders an argument. -/
def renderArgumentBy (d : Document) (inner : List NodeId → Entity → Bounded (List String))
    (trail : List NodeId) (owner : Entity) (a : Argument) : Bounded String := do
  if a.isUnset then throw (.missingArgument owner a)
  let items ← (a.items.map Text.trim).mapM (renderItemBy d inner trail owner a)
  pure (a.name ++ "=" ++ bracket items)

/-- Renders the arguments of an entity. -/
def renderBy (d : Document) (inner : List NodeId → Entity → Bounded (List String))
    (trail : List NodeId) (owner : Entity) : Bounded (List String) :=
  owner.args.mapM (renderArgumentBy d inner trail owner)

/-- Renders the arguments of an entity with at most the given number of calls inside one
another. -/
def renderWithin (d : Document) : Nat → List NodeId → Entity → Bounded (List String)
  | 0 => renderBy d fun _ _ => exhausted
  | n + 1 => renderBy d (renderWithin d n)

/-! ## Loops with the right inner calls -/

/-- The program renders the calls that can be entered from the trail. -/
def RendersCalls (d : Document) (trail : List NodeId)
    (inner : List NodeId → Entity → Bounded (List String)) : Prop :=
  ∀ id target, d.get? id = some target → (inlineCall? target).isSome → id ∉ trail →
    inner (trail ++ [id]) target = unlimited (renderArgs d (trail ++ [id]) target target.args)

section Loops

variable {inner : List NodeId → Entity → Bounded (List String)}
  (hinner : RendersCalls d trail inner) (owner : Entity) (a : Argument)

include hinner

lemma renderReferenceBy_eq (id : NodeId) :
    renderReferenceBy d inner trail owner a id =
      unlimited (renderReference d trail owner a id) := by
  rw [renderReferenceBy, renderReference, unlimited_bind, unlimited_get]
  congr 1
  funext s
  cases s.name? id with
  | some text => rfl
  | none =>
    cases hget : d.get? id with
    | none => rfl
    | some target =>
      dsimp only
      cases hcall : inlineCall? target with
      | none => cases target <;> simp
      | some call =>
        dsimp only
        by_cases hold : id ∈ trail
        · simp [hold]
        · have hargs := hinner id target hget (by simp [hcall]) hold
          simp [hold, hargs]

lemma renderItems_eq_mapM (items : List String) :
    items.mapM (renderItemBy d inner trail owner a) =
      unlimited (renderItems d trail owner a items) := by
  induction items with
  | nil =>
    rw [renderItems]
    rfl
  | cons item rest ih =>
    rw [List.mapM_cons, ih, renderItems, renderItemBy]
    cases a.kind with
    | id => simp [renderReferenceBy_eq hinner]
    | _ => simp

lemma renderArgs_eq_mapM (as : List Argument) :
    as.mapM (renderArgumentBy d inner trail owner) =
      unlimited (renderArgs d trail owner as) := by
  induction as with
  | nil =>
    rw [renderArgs]
    rfl
  | cons a rest ih =>
    rw [List.mapM_cons, ih, renderArgs, renderArgumentBy, renderItems_eq_mapM hinner]
    by_cases hunset : a.isUnset = true
    · simp [hunset]
    · simp [hunset]

/-- **The loops are the program**, if the calls inside them are rendered by it. -/
theorem renderBy_eq : renderBy d inner trail owner =
    unlimited (renderArgs d trail owner owner.args) :=
  renderArgs_eq_mapM hinner owner owner.args

end Loops

/-! ## The bound -/

/-- A unit or an inline layer: an entity that is written as a call inside statements. -/
def isCallee : Entity → Bool
  | .unit _ => true
  | .layer l => l.mode = .ca
  | _ => false

lemma isSome_inlineCall? (e : Entity) : (inlineCall? e).isSome = isCallee e := by
  cases e with
  | layer l => cases hm : l.mode <;> simp [inlineCall?, isCallee, hm, Mode.isMaterialized]
  | _ => rfl

/-- The units and inline layers, in order. -/
def callees (d : Document) : List Entity :=
  d.entities.filter isCallee

lemma remaining_le_length (all seen : List NodeId) : remaining all seen ≤ all.length :=
  List.countP_le_length

/-- Entering a call leaves one less to enter. -/
lemma remaining_callees_lt {id : NodeId} {target : Entity} (hget : d.get? id = some target)
    (hcall : (inlineCall? target).isSome) (hnew : id ∉ trail) :
    remaining ((callees d).map Entity.id) (trail ++ [id]) <
      remaining ((callees d).map Entity.id) trail := by
  have hmem : id ∈ (callees d).map Entity.id := by
    rw [← Document.id_of_get? hget]
    rw [isSome_inlineCall?] at hcall
    exact List.mem_map_of_mem (List.mem_filter.2 ⟨Document.mem_of_get? hget, hcall⟩)
  exact remaining_lt (fun _ hb => List.mem_append_left _ hb) hmem hnew (by simp)

/-- **A bound that covers the calls off the trail is never used up.**  So calls are never nested
deeper than the units and inline layers that are not being written already. -/
theorem renderWithin_eq {n : Nat} (h : remaining ((callees d).map Entity.id) trail ≤ n)
    (owner : Entity) :
    renderWithin d n trail owner = unlimited (renderArgs d trail owner owner.args) := by
  induction n generalizing trail owner with
  | zero =>
    -- Nothing is left to enter: every call is on the trail.
    refine renderBy_eq (fun id target hget hcall hnew => ?_) owner
    have hlt := remaining_callees_lt hget hcall hnew
    omega
  | succ n ih =>
    refine renderBy_eq (fun id target hget hcall hnew => ?_) owner
    have hlt := remaining_callees_lt hget hcall hnew
    exact ih (by omega) target

/-- From the empty trail it is enough to allow as many nested calls as there are units and inline
layers. -/
lemma run_renderWithin {n : Nat} (h : (callees d).length ≤ n) (owner : Entity) (s : Scope) :
    ((renderWithin d n [] owner).run s).run =
      some ((renderArgs d [] owner owner.args).run s) := by
  have hle : remaining ((callees d).map Entity.id) [] ≤ (callees d).length := by
    simpa using remaining_le_length ((callees d).map Entity.id) []
  rw [renderWithin_eq (Nat.le_trans hle h)]
  rfl

end NetDiagram.Flow
