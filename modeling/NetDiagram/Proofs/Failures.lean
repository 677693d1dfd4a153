import Mathlib.Data.List.Chain
import NetDiagram.Proofs.Progress
import NetDiagram.Proofs.Soundness

/-!
# Where a compilation fails

A compilation stops at its first fault, and a fault is passed on through everything that is under
way: from an item to its argument, from a call to the statement it stands in.  This file goes back
from the fault to its origin.

A rendering that fails has come to a run that fails by itself (`Run.Fails`), for one of four
reasons; a walk that stops (`Walk.Stops`) cannot follow a connection, or cannot render a statement.
On the way from a statement to such a run the trail holds the calls that are under way, in their
order, each of which refers to the next (`Run.Nested`).

## Main statements

* `Run.result_eq_error_iff`: a run fails exactly if it comes to a run that fails by itself.
* `Run.Nested.of_reaches`: the trail of a run is the chain of the calls that lead to it.
* `Walk.Stops.of_next`: why the next step of a walk cannot be taken.
-/

namespace NetDiagram.Flow

variable {d : Document}

/-- An argument of the first entity refers to the second one. -/
def Names (e e' : Entity) : Prop :=
  e'.id ∈ references e.args

/-! ## Runs that fail by themselves -/

namespace Run

/-- The run fails, and not because of a run that it starts. -/
inductive Fails (d : Document) : Run → Fault → Prop
  | unset {trail : List NodeId} {owner : Entity} {a : Argument} {rest : List Argument} {s : Scope}
      (unset : a.isUnset = true) :
      Fails d ⟨trail, owner, .args (a :: rest), s⟩ (.missingArgument owner a)
  | dangling {trail : List NodeId} {owner : Entity} {a : Argument} {id : NodeId} {s : Scope}
      (name : s.name? id = none) (get : d.get? id = none) :
      Fails d ⟨trail, owner, .reference a id, s⟩ (.danglingReference owner a id)
  /-- A model or a note. -/
  | bad {trail : List NodeId} {owner target : Entity} {a : Argument} {id : NodeId} {s : Scope}
      (name : s.name? id = none) (get : d.get? id = some target)
      (value : target.isReferable = false) :
      Fails d ⟨trail, owner, .reference a id, s⟩ (.badReference owner a target)
  /-- A unit or an inline layer that is being written. -/
  | loop {trail : List NodeId} {owner target : Entity} {a : Argument} {id : NodeId} {s : Scope}
      (name : s.name? id = none) (get : d.get? id = some target)
      (call : (inlineCall? target).isSome) (old : id ∈ trail) :
      Fails d ⟨trail, owner, .reference a id, s⟩
        (.cyclicReference (trail.filterMap d.get?) target)

/-- The run comes to a run that fails by itself. -/
def Breaks (d : Document) (r : Run) (fault : Fault) : Prop :=
  ∃ r', Relation.ReflTransGen (Starts d) r r' ∧ Fails d r' fault

variable {r r' : Run} {fault : Fault}

lemma Fails.breaks (h : Fails d r fault) : r.Breaks d fault :=
  ⟨r, .refl, h⟩

lemma Breaks.of_starts (h : r'.Breaks d fault) (hstart : Starts d r r') : r.Breaks d fault := by
  obtain ⟨r₁, hreaches, hfails⟩ := h
  exact ⟨r₁, .head hstart hreaches, hfails⟩

section Pieces

variable {trail : List NodeId} {owner : Entity} {a : Argument} {s : Scope}

/-- A list of arguments, given where its first argument and the others fail. -/
lemma breaks_args {rest : List Argument}
    (hitems : ∀ s, (Piece.items a (a.items.map Text.trim)).run d trail owner s = .error fault →
      Breaks d ⟨trail, owner, .items a (a.items.map Text.trim), s⟩ fault)
    (hrest : ∀ s, (Piece.args rest).run d trail owner s = .error fault →
      Breaks d ⟨trail, owner, .args rest, s⟩ fault)
    (h : (Piece.args (a :: rest)).run d trail owner s = .error fault) :
    Breaks d ⟨trail, owner, .args (a :: rest), s⟩ fault := by
  rw [Piece.run, run_renderArgs_cons] at h
  split at h
  -- An unset argument is where the run fails by itself; otherwise it fails further inside.
  · rename_i hunset
    obtain rfl := Except.error.inj h
    exact (Fails.unset hunset).breaks
  · rename_i hset
    have hset' : a.isUnset = false := by simpa using hset
    split at h
    · rename_i fault' hfirst
      obtain rfl := Except.error.inj h
      exact (hitems s hfirst).of_starts (.items hset')
    · rename_i items s₁ hfirst
      split at h
      · rename_i fault' hothers
        obtain rfl := Except.error.inj h
        exact (hrest s₁ hothers).of_starts (.args hset' (.of_run hfirst))
      · simp at h

lemma breaks_items (hk : a.kind = .id) {item : String} {rest : List String}
    (hreference : ∀ s, (Piece.reference a (.ofText item)).run d trail owner s = .error fault →
      Breaks d ⟨trail, owner, .reference a (.ofText item), s⟩ fault)
    (hrest : ∀ s, (Piece.items a rest).run d trail owner s = .error fault →
      Breaks d ⟨trail, owner, .items a rest, s⟩ fault)
    (h : (Piece.items a (item :: rest)).run d trail owner s = .error fault) :
    Breaks d ⟨trail, owner, .items a (item :: rest), s⟩ fault := by
  rw [Piece.run, run_renderItems_reference hk] at h
  split at h
  · rename_i fault' hfirst
    obtain rfl := Except.error.inj h
    have hfirst' : (Piece.reference a (.ofText item)).run d trail owner s = .error fault' := by
      rw [Piece.run, hfirst]
    exact (hreference s hfirst').of_starts (.reference hk)
  · rename_i text s₁ hfirst
    have hfirst' : (Piece.reference a (.ofText item)).run d trail owner s = .ok ([text], s₁) := by
      rw [Piece.run, hfirst]
    split at h
    · rename_i fault' hothers
      obtain rfl := Except.error.inj h
      exact (hrest s₁ hothers).of_starts (.moreItems hk (.of_run hfirst'))
    · simp at h

lemma breaks_reference {id : NodeId}
    (hargs : ∀ target, d.get? id = some target → id ∉ trail → ∀ s,
      (Piece.args target.args).run d (trail ++ [id]) target s = .error fault →
        Breaks d ⟨trail ++ [id], target, .args target.args, s⟩ fault)
    (h : (Piece.reference a id).run d trail owner s = .error fault) :
    Breaks d ⟨trail, owner, .reference a id, s⟩ fault := by
  have hrun := result_reference_eq_error_iff.1 h
  rw [run_renderReference] at hrun
  cases hname : s.name? id with
  | some text => simp [hname] at hrun
  | none =>
    cases hget : d.get? id with
    | none =>
      obtain rfl : Fault.danglingReference owner a id = fault := by simpa [hname, hget] using hrun
      exact (Fails.dangling hname hget).breaks
    | some target =>
      cases hcall : inlineCall? target with
      | some call =>
        obtain ⟨source, className⟩ := call
        simp only [hname, hget, hcall] at hrun
        split at hrun
        · rename_i hold
          obtain rfl := Except.error.inj hrun
          exact (Fails.loop hname hget (by simp [hcall]) hold).breaks
        · rename_i hnew
          split at hrun
          · rename_i fault' hinner
            obtain rfl := Except.error.inj hrun
            exact (hargs target hget hnew _ hinner).of_starts (.call hname hget hcall hnew)
          · simp at hrun
      | none =>
        cases target with
        | placeholder p => simp [hname, hget, hcall] at hrun
        | layer l => simp [hname, hget, hcall] at hrun
        | unit u => simp [inlineCall?] at hcall
        | model m =>
          obtain rfl : Fault.badReference owner a (.model m) = fault := by
            simpa [hname, hget, hcall] using hrun
          exact (Fails.bad hname hget rfl).breaks
        | note n =>
          obtain rfl : Fault.badReference owner a (.note n) = fault := by
            simpa [hname, hget, hcall] using hrun
          exact (Fails.bad hname hget rfl).breaks

end Pieces

/-- A run that fails has come to a run that fails by itself. -/
lemma Breaks.of_result (h : r.result d = .error fault) : r.Breaks d fault := by
  obtain ⟨trail, owner, piece, s⟩ := r
  simp only [result] at h
  -- The induction is that of the renderer: a call is entered with a longer trail.
  induction trail, owner, piece using Piece.induction (d := d) generalizing s with
  | noArgs trail owner =>
    rw [Piece.run, run_renderArgs_nil] at h
    simp at h
  | arg trail owner a rest ihitems ihrest => exact breaks_args ihitems ihrest h
  | noItems trail owner a =>
    rw [Piece.run, run_renderItems_nil] at h
    simp at h
  | literal trail owner a item rest hk ihrest =>
    rw [Piece.run, run_renderItems_literal hk] at h
    split at h
    · rename_i fault' hothers
      obtain rfl := Except.error.inj h
      exact (ihrest s hothers).of_starts (.moreLiterals hk)
    · simp at h
  | item trail owner a item rest hk ihreference ihrest =>
    exact breaks_items hk ihreference ihrest h
  | reference trail owner a id ihargs => exact breaks_reference ihargs h

lemma Fails.result_eq (h : Fails d r fault) : r.result d = .error fault := by
  cases h with
  | unset hunset => simp only [result, Piece.run, run_renderArgs_cons, hunset, if_true]
  | dangling name get => simp [result, Piece.run, run_renderReference, name, get]
  | @bad _ _ target _ _ _ name get value =>
    cases target with
    | model m => simp [result, Piece.run, run_renderReference, name, get, inlineCall?]
    | note n => simp [result, Piece.run, run_renderReference, name, get, inlineCall?]
    | _ => simp [Entity.isReferable] at value
  | loop name get call old =>
    obtain ⟨⟨source, className⟩, hcall⟩ := Option.isSome_iff_exists.1 call
    simp [result, Piece.run, run_renderReference, name, get, hcall, old]

/-- **Faults have an origin.**  A run fails exactly if it comes to a run that fails by itself, and
with the same fault. -/
theorem result_eq_error_iff : r.result d = .error fault ↔ r.Breaks d fault := by
  constructor
  · exact Breaks.of_result
  · rintro ⟨r', hreaches, hfails⟩
    exact error_of_reaches hreaches hfails.result_eq

/-! ## The calls that lead to a run -/

/-- The run is made for the statement of `root`, inside the calls of the chain, the outermost one
first. -/
structure Nested (d : Document) (root : Entity) (chain : List Entity) (r : Run) : Prop where
  trail_eq : r.trail = chain.map Entity.id
  get : ∀ e ∈ chain, d.get? e.id = some e
  call : ∀ e ∈ chain, (inlineCall? e).isSome
  nodup : (chain.map Entity.id).Nodup
  linked : (root :: chain).IsChain Names
  /-- The run belongs to the innermost call. -/
  last : (root :: chain).getLast? = some r.owner
  references : r.piece.references ⊆ references r.owner.args

namespace Nested

variable {root : Entity} {chain : List Entity}

lemma start (root : Entity) (s : Scope) : Nested d root [] ⟨[], root, .args root.args, s⟩ where
  trail_eq := rfl
  get := by simp
  call := by simp
  nodup := .nil
  linked := .singleton root
  last := rfl
  references := List.Subset.refl _

/-- A run for the same entity that refers to no more. -/
lemma inside (h : Nested d root chain r) (htrail : r'.trail = r.trail) (howner : r'.owner = r.owner)
    (hrefs : r'.piece.references ⊆ r.piece.references) : Nested d root chain r' where
  trail_eq := htrail.trans h.trail_eq
  get := h.get
  call := h.call
  nodup := h.nodup
  linked := h.linked
  last := howner ▸ h.last
  references := howner ▸ List.Subset.trans hrefs h.references

/-- The innermost entity refers to the target of a reference. -/
lemma names {trail : List NodeId} {owner target : Entity} {a : Argument} {id : NodeId} {s : Scope}
    (h : Nested d root chain ⟨trail, owner, .reference a id, s⟩) (hget : d.get? id = some target) :
    (root :: (chain ++ [target])).IsChain Names := by
  have hid : target.id = id := Document.id_of_get? hget
  have hnames : Names owner target := by
    rw [Names, hid]
    exact h.references (List.mem_singleton.2 rfl)
  refine h.linked.append (.singleton target) fun x hx y hy => ?_
  obtain rfl : owner = x := Option.some.inj (h.last.symm.trans hx)
  obtain rfl : target = y := Option.some.inj hy
  exact hnames

/-- A call is added to the chain. -/
lemma enter {trail : List NodeId} {owner target : Entity} {a : Argument} {id : NodeId}
    {s s' : Scope} (h : Nested d root chain ⟨trail, owner, .reference a id, s⟩)
    (hget : d.get? id = some target) (hcall : (inlineCall? target).isSome) (hnew : id ∉ trail) :
    Nested d root (chain ++ [target]) ⟨trail ++ [id], target, .args target.args, s'⟩ := by
  obtain rfl : target.id = id := Document.id_of_get? hget
  have htrail : trail = chain.map Entity.id := h.trail_eq
  refine ⟨by simp [htrail], ?_, ?_, ?_, h.names hget, ?_, List.Subset.refl _⟩
  · intro e he
    rcases List.mem_append.1 he with hold | hlast
    · exact h.get e hold
    · obtain rfl := List.mem_singleton.1 hlast
      exact hget
  · intro e he
    rcases List.mem_append.1 he with hold | hlast
    · exact h.call e hold
    · obtain rfl := List.mem_singleton.1 hlast
      exact hcall
  -- A call is only entered if it is not on the trail, so the calls of a chain are distinct.
  · have hfresh : ∀ x ∈ chain.map Entity.id, x ≠ target.id := by
      rintro x hx rfl
      exact hnew (htrail ▸ hx)
    rw [List.map_append]
    exact List.nodup_append.2 ⟨h.nodup, by simp, by simpa using hfresh⟩
  · rw [← List.cons_append, List.getLast?_concat]

lemma starts (h : Nested d root chain r) (hstart : Starts d r r') :
    ∃ chain', Nested d root chain' r' := by
  cases hstart with
  | items set =>
    refine ⟨chain, h.inside rfl rfl ?_⟩
    rw [Piece.references_args_cons]
    exact List.subset_append_left _ _
  | args set first =>
    refine ⟨chain, h.inside rfl rfl ?_⟩
    rw [Piece.references_args_cons]
    exact List.subset_append_right _ _
  | reference kind =>
    refine ⟨chain, h.inside rfl rfl ?_⟩
    rw [Piece.references_items_cons kind]
    exact List.subset_append_left _ _
  | moreItems kind first =>
    refine ⟨chain, h.inside rfl rfl ?_⟩
    rw [Piece.references_items_cons kind]
    exact List.subset_append_right _ _
  | moreLiterals kind =>
    refine ⟨chain, h.inside rfl rfl ?_⟩
    simp [Piece.references, kind]
  | @call trail owner a id s target source className name get inline new =>
    exact ⟨chain ++ [target], h.enter get (by simp [inline]) new⟩

/-- **The trail is the chain of calls.**  Every run that a statement leads to is made inside a
chain of distinct calls, each of which refers to the next. -/
theorem of_reaches {s : Scope}
    (h : Relation.ReflTransGen (Starts d) ⟨[], root, .args root.args, s⟩ r) :
    ∃ chain, Nested d root chain r := by
  induction h with
  | refl => exact ⟨[], start root s⟩
  | tail _ hstart ih =>
    obtain ⟨chain, hchain⟩ := ih
    exact hchain.starts hstart

lemma filterMap_get? (h : Nested d root chain r) : r.trail.filterMap d.get? = chain := by
  have hget : ∀ e ∈ chain, (d.get? ∘ Entity.id) e = some e := h.get
  rw [h.trail_eq, List.filterMap_map, List.filterMap_congr hget, List.filterMap_some]

lemma mem_chain {target : Entity} {id : NodeId} (h : Nested d root chain r)
    (hget : d.get? id = some target) (hold : id ∈ r.trail) : target ∈ chain := by
  rw [h.trail_eq] at hold
  obtain ⟨e, he, rfl⟩ := List.mem_map.1 hold
  obtain rfl : e = target := Option.some.inj ((h.get e he).symm.trans hget)
  exact he

lemma owner_mem (h : Nested d root chain r) (hroot : root ∈ d.entities) :
    r.owner ∈ d.entities := by
  rcases List.mem_cons.1 (List.mem_of_getLast? h.last) with hfirst | hcall
  · exact hfirst ▸ hroot
  · exact Document.mem_of_get? (h.get _ hcall)

end Nested

end Run

/-! ## Walks that stop -/

namespace Walk

variable {w : Walk} {t : Draft} {fault : Fault}

lemma writeLayer_eq_error_iff {l : Layer} {call : Option String} :
    Draft.writeLayer d t l call = .error fault ↔
      (renderArgs d [] (.layer l) l.args).run (t.scope.touch layerSource) = .error fault := by
  unfold Draft.writeLayer
  split <;> simp [*]

lemma writeModel_eq_error_iff {m : Model} :
    Draft.writeModel d t m = .error fault ↔
      (renderArgs d [] (.model m) m.args).run (t.scope.touch modelSource) = .error fault := by
  unfold Draft.writeModel
  split <;> simp [*]

lemma Begins.mem_entities {e : Entity} {s : Scope} (h : w.Begins d e s) (hc : w.Coherent d) :
    e ∈ d.entities := by
  cases h with
  | entrance _ _ =>
    have hmem := Document.mem_entrances_iff.1 (hc.entrance_mem _ List.mem_cons_self)
    exact Document.mem_of_get? hmem.1
  | layer hget _ _ => exact Document.mem_of_get? hget
  | model hget _ _ _ => exact Document.mem_of_get? hget

/-- The next step of the walk cannot be taken. -/
inductive Stops (d : Document) : Walk → Fault → Prop
  | inlineEntrance {l : Layer} {entrances : List Layer} {t : Draft} (mode : l.mode = .ca) :
      Stops d ⟨l :: entrances, [], t⟩ (.inlineInFlow none l)
  | dangling {p : Layer} {id : NodeId} {entrances : List Layer} {rest : List (Layer × NodeId)}
      {t : Draft} (get : d.get? id = none) :
      Stops d ⟨entrances, (p, id) :: rest, t⟩ (.danglingLink p id)
  | value {p : Layer} {id : NodeId} {target : Entity} {entrances : List Layer}
      {rest : List (Layer × NodeId)} {t : Draft} (get : d.get? id = some target) :
      Stops d ⟨entrances, (p, id) :: rest, t⟩ (.linkToValue p target)
  | inlineTarget {p l : Layer} {entrances : List Layer} {rest : List (Layer × NodeId)} {t : Draft}
      (get : d.get? l.id = some (.layer l)) (mode : l.mode = .ca) :
      Stops d ⟨entrances, (p, l.id) :: rest, t⟩ (.inlineInFlow (some p) l)
  | notAnInput {p l : Layer} {entrances : List Layer} {rest : List (Layer × NodeId)} {t : Draft}
      (get : d.get? l.id = some (.layer l)) :
      Stops d ⟨entrances, (p, l.id) :: rest, t⟩ (.notAnInput p l)
  | missingRole {p : Layer} {m : Model} {name : String} {entrances : List Layer}
      {rest : List (Layer × NodeId)} {t : Draft} (get : d.get? m.id = some (.model m)) :
      Stops d ⟨entrances, (p, m.id) :: rest, t⟩ (.missingRole m name)
  | notARole {p : Layer} {m : Model} {entrances : List Layer} {rest : List (Layer × NodeId)}
      {t : Draft} (get : d.get? m.id = some (.model m)) :
      Stops d ⟨entrances, (p, m.id) :: rest, t⟩ (.notARole p m)
  /-- The arguments of a statement cannot be rendered. -/
  | statement {w : Walk} {e : Entity} {s : Scope} {fault : Fault} (begins : w.Begins d e s)
      (run : (renderArgs d [] e e.args).run s = .error fault) : Stops d w fault

section Connections

variable {p : Layer} {entrances : List Layer} {rest : List (Layer × NodeId)}

lemma Stops.of_reachLayer {l : Layer} (hget : d.get? l.id = some (.layer l))
    (h : Draft.reachLayer d t p l = .error fault) :
    Stops d ⟨entrances, (p, l.id) :: rest, t⟩ fault := by
  have hfault : fault = .notAnInput p l := by
    unfold Draft.reachLayer at h
    split at h
    · simp at h
    · split at h
      · split at h
        · simp at h
        · exact (Except.error.inj h).symm
      · split at h
        · simp at h
        · simp at h
        · exact (Except.error.inj h).symm
      · exact (Except.error.inj h).symm
  exact hfault ▸ .notAnInput hget

lemma Stops.of_reachModel {m : Model} (hget : d.get? m.id = some (.model m))
    (h : Draft.reachModel d t p m = .error fault) :
    Stops d ⟨entrances, (p, m.id) :: rest, t⟩ fault := by
  have hrole : ∀ name fault', Draft.roleIds m name = .error fault' →
      Stops d ⟨entrances, (p, m.id) :: rest, t⟩ fault' := by
    intro name fault' hrole
    rcases roleIds_cases m name with hcase | hcase
    · obtain rfl := Except.error.inj (hcase.symm.trans hrole)
      exact .missingRole hget
    · simp [hcase] at hrole
  unfold Draft.reachModel at h
  split at h
  · rename_i fault' hinputs
    obtain rfl := Except.error.inj h
    exact hrole _ _ hinputs
  · rename_i inputs hinputs
    split at h
    · rename_i fault' houtputs
      obtain rfl := Except.error.inj h
      exact hrole _ _ houtputs
    · rename_i outputs houtputs
      split at h
      · rename_i ledger harrive
        have hrun := writeModel_eq_error_iff.1 h
        exact .statement (.model hget hinputs houtputs harrive) hrun
      · simp at h
      · obtain rfl := Except.error.inj h
        exact .notARole hget

lemma Stops.of_visit {id : NodeId} (h : visit d t p id = .error fault) :
    Stops d ⟨entrances, (p, id) :: rest, t⟩ fault := by
  unfold visit at h
  split at h
  · rename_i hget
    obtain rfl := Except.error.inj h
    exact .dangling hget
  · rename_i m hget
    obtain rfl : m.id = id := Document.id_of_get? hget
    split at h
    · rename_i fault' hreach
      obtain rfl := Except.error.inj h
      exact .of_reachModel hget hreach
    · simp at h
  · rename_i l hget
    obtain rfl : l.id = id := Document.id_of_get? hget
    split at h
    · rename_i hmode
      obtain rfl := Except.error.inj h
      exact .inlineTarget hget hmode
    · rename_i hmode
      split at h
      · rename_i fault' hreach
        obtain rfl := Except.error.inj h
        exact .of_reachLayer hget hreach
      · simp at h
      · rename_i ledger call hreach
        split at h
        · rename_i fault' hwrite
          obtain rfl := Except.error.inj h
          have hrun := writeLayer_eq_error_iff.1 hwrite
          exact .statement (.layer hget hmode hreach) hrun
        · simp at h
  · rename_i target _ _ hget
    obtain rfl := Except.error.inj h
    exact .value hget

end Connections

/-- **Why a walk stops.** -/
theorem Stops.of_next (h : w.next d = .error fault) : w.Stops d fault := by
  obtain ⟨entrances, links, t⟩ := w
  cases links with
  | cons link rest =>
    obtain ⟨p, id⟩ := link
    simp only [next] at h
    split at h
    · rename_i fault' hvisit
      obtain rfl := Except.error.inj h
      exact .of_visit hvisit
    · simp at h
  | nil =>
    cases entrances with
    | nil => simp [next] at h
    | cons l entrances =>
      simp only [next] at h
      split at h
      · rename_i hmode
        obtain rfl := Except.error.inj h
        exact .inlineEntrance hmode
      · rename_i hmode
        split at h
        · simp at h
        · rename_i hnew
          split at h
          · rename_i fault' hwrite
            obtain rfl := Except.error.inj h
            exact .statement (.entrance hmode hnew) (writeLayer_eq_error_iff.1 hwrite)
          · simp at h

end Walk

/-! ## Compilations that fail -/

variable {fault : Fault}

/-- The faults of a document that does not pass its checks. -/
lemma fault_of_validate (h : validate d = .error fault) :
    fault = .noEntrance ∨ fault = .noModel ∨ ∃ e ∈ d.entities, fault = .cyclic e := by
  unfold validate checkAcyclic at h
  split at h
  · exact Or.inl (Except.error.inj h).symm
  · split at h
    · exact Or.inr (Or.inl (Except.error.inj h).symm)
    · split at h
      · rename_i i hcycle
        have hmem : (flowEntities d).get i ∈ d.entities := List.mem_of_mem_filter (List.get_mem _ i)
        exact Or.inr (Or.inr ⟨_, hmem, (Except.error.inj h).symm⟩)
      · simp at h

lemma exists_stops_of_compile (h : compile d = .error fault) :
    validate d = .error fault ∨
      validate d = .ok () ∧ ∃ w, Walk.Reached d w ∧ w.Stops d fault := by
  cases hvalid : validate d with
  | error fault' =>
    obtain rfl : fault' = fault := by simpa [compile, hvalid] using h
    exact Or.inl rfl
  | ok _ =>
    obtain ⟨w, hreached, hnext⟩ := exists_next_error_of_compile hvalid h
    exact Or.inr ⟨rfl, w, hreached, .of_next hnext⟩

lemma exists_begins_entrance {l : Layer} {rest : List Layer} (hfirst : d.entrances = l :: rest)
    (hmode : l.mode ≠ .ca) :
    ∃ w, Walk.Reached d w ∧ w.Begins d (.layer l) (({} : Scope).touch layerSource) := by
  have hstart : Walk.Reached d ⟨d.entrances, [], {}⟩ := Walk.Reached.start
  rw [hfirst] at hstart
  exact ⟨_, hstart, .entrance hmode (by simp)⟩

lemma compile_of_breaks_entrance {l : Layer} {rest : List Layer} (hvalid : validate d = .ok ())
    (hfirst : d.entrances = l :: rest) (hmode : l.mode ≠ .ca)
    (h : Run.Breaks d ⟨[], .layer l, .args l.args, ({} : Scope).touch layerSource⟩ fault) :
    compile d = .error fault := by
  obtain ⟨w, hw, hbegins⟩ := exists_begins_entrance hfirst hmode
  have hencounters : Encounters d ⟨[], .layer l, .args l.args, ({} : Scope).touch layerSource⟩ :=
    ⟨hvalid, w, _, _, hw, hbegins, .refl⟩
  exact hencounters.compile_eq_error (Run.result_eq_error_iff.2 h)

/-- The statement that cannot be rendered leads to a run that fails by itself. -/
lemma exists_fails_of_run {e : Entity} {s : Scope}
    (h : (renderArgs d [] e e.args).run s = .error fault) :
    ∃ r chain, Relation.ReflTransGen (Run.Starts d) ⟨[], e, .args e.args, s⟩ r ∧
      r.Nested d e chain ∧ r.Fails d fault := by
  obtain ⟨r, hreaches, hfails⟩ := Run.Breaks.of_result (r := ⟨[], e, .args e.args, s⟩) h
  obtain ⟨chain, hnested⟩ := Run.Nested.of_reaches hreaches
  exact ⟨r, chain, hreaches, hnested, hfails⟩

end NetDiagram.Flow
