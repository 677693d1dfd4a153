import Mathlib.Algebra.GroupWithZero.Nat
import Mathlib.Data.List.Nodup
import Mathlib.Data.List.Perm.Subperm
import NetDiagram.Proofs.BoundedRendering
import NetDiagram.Proofs.Walk

/-!
# Walking with a bound, and what a walk does

A walk writes the statement of a layer, follows its connections one by one, and in the course of
that writes further layers.  It ends because no layer is written twice.  This file makes the bound
explicit, and counts.

`walkWithin d k n` is the walk with at most `n` layers being written at a time, each of whose
statements has at most `k` nested calls.  It recurses on the two numbers and on lists, and has no
result (`none`) where either of them is used up.  In addition to what the walk leads to it gives the
`Event`s of the walk in their order, up to its end or to the fault that stops it: which layers it
began to write, and which positions of their outputs it visited.

Nothing is assumed of the document.  Its connections may form cycles, lead back to where they start
or be listed several times, and its references may form loops.

## Main definitions

* `Event`: a layer is entered, or a position of its outputs is visited.
* `walkWithin`: the walk with bounds, and its record.
* `Orderly`: no event of a record happens twice, and layers that were written before are left alone.

## Main statements

* `Orderly.append`: orderly records can be put one after the other.
* `emits_emitWithin`: a bound that covers the unwritten layers is never used up.
* `walk_within_size`: the walk of a document within the size of the document.
-/

namespace NetDiagram.Flow

/-! ## Records -/

/-- What happens in the course of a walk. -/
inductive Event where
  /-- The statement of a layer is begun. -/
  | enter (layer : NodeId)
  /-- The connection at a position of a layer's outputs is followed. -/
  | visit (layer : NodeId) (position : Nat)
deriving DecidableEq, Repr

/-- The layer that an event is about. -/
def Event.layer : Event → NodeId
  | enter layer => layer
  | visit layer _ => layer

/-- What was done, in order, and what it led to; or nothing, if a bound was used up. -/
abbrev Recorded (α : Type) :=
  Option (List Event × Except Fault α)

namespace Recorded

variable {α β : Type}

/-- Puts an event in front. -/
def record (e : Event) (x : Recorded α) : Recorded α :=
  x.map fun (log, r) => (e :: log, r)

/-- Continues, unless there was a fault. -/
def andThen (x : Recorded α) (f : α → Recorded β) : Recorded β :=
  x.bind fun
    | (log, .error fault) => some (log, .error fault)
    | (log, .ok a) => (f a).map fun (log', r) => (log ++ log', r)

/-- A computation without events. -/
def quietly (x : Option (Except Fault α)) : Recorded α :=
  x.map fun r => ([], r)

end Recorded

open Recorded

/-! ## The bounded walk -/

/-- Writes the statement of a layer. -/
def writeLayerWithin (d : Document) (k : Nat) (t : Draft) (l : Layer) (call : Option String) :
    Option (Except Fault Draft) :=
  ((renderWithin d k [] (.layer l)).run (t.scope.touch layerSource)).run.map fun
    | .error fault => .error fault
    | .ok (args, scope) =>
      .ok
        { t with
          scope := scope.bind l.id l.var
          statements := t.statements ++
            [⟨l.var, layerSource, l.className, ", ".intercalate args, call⟩]
          emitted := t.emitted ++ [l.id] }

/-- Writes the statement of a model. -/
def writeModelWithin (d : Document) (k : Nat) (t : Draft) (m : Model) :
    Option (Except Fault Draft) :=
  ((renderWithin d k [] (.model m)).run (t.scope.touch modelSource)).run.map fun
    | .error fault => .error fault
    | .ok (args, scope) =>
      .ok
        { t with
          scope := scope
          statements := t.statements ++
            [⟨m.var, modelSource, m.className, ", ".intercalate args, none⟩]
          endpoints := t.endpoints ++ [m.var]
          emitted := t.emitted ++ [m.id] }

/-- What the arrival of a layer at a model leads to. -/
def reachModelWithin (d : Document) (k : Nat) (t : Draft) (source : Layer) (m : Model) :
    Option (Except Fault Draft) :=
  match Draft.roleIds m Model.inputsName, Draft.roleIds m Model.outputsName with
  | .error fault, _ => some (.error fault)
  | .ok _, .error fault => some (.error fault)
  | .ok inputs, .ok outputs =>
    match (t.ledger.register m.id [inputs, outputs]).arrive m.id source.id with
    | (.satisfied, ledger) => writeModelWithin d k { t with ledger := ledger } m
    | (.pending, ledger) => some (.ok { t with ledger := ledger })
    | (.undeclared, _) => some (.error (.notARole source m))

/-- Follows a connection; a layer that is to be written now is emitted by the given program. -/
def visitWithin (d : Document) (k : Nat) (emit : Layer → Option String → Draft → Recorded Draft)
    (source : Layer) (id : NodeId) (t : Draft) : Recorded Draft :=
  match d.get? id with
  | none => quietly (some (.error (.danglingLink source id)))
  | some (.model m) => quietly (reachModelWithin d k t source m)
  | some (.layer l) =>
    if l.mode = .ca then quietly (some (.error (.inlineInFlow (some source) l)))
    else
      match Draft.reachLayer d t source l with
      | .error fault => quietly (some (.error fault))
      | .ok (ledger, none) => quietly (some (.ok { t with ledger := ledger }))
      | .ok (ledger, some call) => emit l (some call) { t with ledger := ledger }
  | some target => quietly (some (.error (.linkToValue source target)))

/-- Follows connections at the given positions of a layer's outputs. -/
def visitEach (d : Document) (k : Nat) (emit : Layer → Option String → Draft → Recorded Draft)
    (source : Layer) : List (NodeId × Nat) → Draft → Recorded Draft
  | [], t => quietly (some (.ok t))
  | (id, i) :: rest, t =>
    ((visitWithin d k emit source id t).record (.visit source.id i)).andThen
      (visitEach d k emit source rest)

/-- Writes a layer and follows its connections, with at most the given number of layers under way
at a time. -/
def emitWithin (d : Document) (k : Nat) : Nat → Layer → Option String → Draft → Recorded Draft
  | 0, _, _, _ => none
  | n + 1, l, call, t =>
    ((quietly (writeLayerWithin d k t l call)).andThen
      (visitEach d k (emitWithin d k n) l l.output.zipIdx)).record (.enter l.id)

/-- Starts at each of the entrances. -/
def enterEach (d : Document) (k n : Nat) : List Layer → Draft → Recorded Draft
  | [], t => quietly (some (.ok t))
  | l :: rest, t =>
    if l.mode = .ca then quietly (some (.error (.inlineInFlow none l)))
    else if l.id ∈ t.emitted then enterEach d k n rest t
    else (emitWithin d k n l none t).andThen (enterEach d k n rest)

/-- The walk with at most `n` layers under way at a time, and at most `k` nested calls in each
statement. -/
def walkWithin (d : Document) (k n : Nat) : Recorded Compilation :=
  (enterEach d k n d.entrances {}).andThen fun t => quietly (some (.ok (t.finish d)))

/-! ## Statements within the bound -/

variable {d : Document} {k : Nat} {t : Draft}

section Statements

variable (hk : (callees d).length ≤ k)

include hk

lemma writeLayerWithin_eq (l : Layer) (call : Option String) :
    writeLayerWithin d k t l call = some (Draft.writeLayer d t l call) := by
  rw [writeLayerWithin, run_renderWithin hk, Draft.writeLayer, Option.map_some]
  rfl

lemma writeModelWithin_eq (m : Model) :
    writeModelWithin d k t m = some (Draft.writeModel d t m) := by
  rw [writeModelWithin, run_renderWithin hk, Draft.writeModel, Option.map_some]
  rfl

lemma reachModelWithin_eq (source : Layer) (m : Model) :
    reachModelWithin d k t source m = some (Draft.reachModel d t source m) := by
  unfold reachModelWithin Draft.reachModel
  cases Draft.roleIds m Model.inputsName with
  | error fault => rfl
  | ok inputs =>
    cases Draft.roleIds m Model.outputsName with
    | error fault => rfl
    | ok outputs =>
      dsimp only
      cases (t.ledger.register m.id [inputs, outputs]).arrive m.id source.id with
      | mk arrival ledger =>
        cases arrival with
        | satisfied => exact writeModelWithin_eq hk m
        | _ => rfl

end Statements

/-! ## Orderly records -/

/-- The visits to all outputs of a layer. -/
def visits (l : Layer) : List Event :=
  (List.range l.output.length).map (.visit l.id)

lemma length_visits (l : Layer) : (visits l).length = l.output.length := by
  simp [visits]

/-- All that can happen in the walk of a document. -/
def events (d : Document) : List Event :=
  d.layers.flatMap fun l => .enter l.id :: visits l

lemma length_events (d : Document) :
    (events d).length = d.layers.length + (d.layers.map fun l => l.output.length).sum := by
  unfold events
  induction d.layers with
  | nil => rfl
  | cons l rest ih =>
    rw [List.flatMap_cons, List.length_append, ih, List.length_cons, length_visits,
      List.length_cons, List.map_cons, List.sum_cons]
    omega

lemma enter_mem_events {l : Layer} (hl : l ∈ d.layers) : .enter l.id ∈ events d :=
  List.mem_flatMap.2 ⟨l, hl, List.mem_cons_self⟩

lemma visits_subset_events {l : Layer} (hl : l ∈ d.layers) : visits l ⊆ events d :=
  fun _ he => List.mem_flatMap.2 ⟨l, hl, List.mem_cons_of_mem _ he⟩

lemma layer_of_mem_visits {l : Layer} {e : Event} (he : e ∈ visits l) : e.layer = l.id := by
  obtain ⟨i, -, rfl⟩ := List.mem_map.1 he
  rfl

lemma eq_of_mem_layers {l l' : Layer} (hl : l ∈ d.layers) (hl' : l' ∈ d.layers)
    (hid : l.id = l'.id) : l = l' := by
  rw [Document.mem_layers_iff] at hl hl'
  rw [hid, hl'] at hl
  simpa using hl.symm

/-- A record of what was done when the layers `seen` had been written, and what it led to.  The
events `own` were due from the beginning; any other is about a layer that was entered in the course
of the record. -/
structure Orderly (d : Document) (own : List Event) (seen : List NodeId) (log : List Event)
    (r : Except Fault Draft) : Prop where
  nodup : log.Nodup
  possible : log ⊆ events d
  new : ∀ e ∈ log, e ∉ own → e.layer ∉ seen
  entered : ∀ e ∈ log, e ∉ own → .enter e.layer ∈ log
  done : ∀ t, r = .ok t → own ⊆ log
  followed : ∀ t, r = .ok t → ∀ l ∈ d.layers, .enter l.id ∈ log → visits l ⊆ log
  grows : ∀ t, r = .ok t → seen ⊆ t.emitted
  written : ∀ t, r = .ok t → ∀ e ∈ log, e.layer ∈ t.emitted

namespace Orderly

variable {own own' log log' : List Event} {seen : List NodeId} {r : Except Fault Draft}

lemma nil (hgrows : ∀ t, r = .ok t → seen ⊆ t.emitted) : Orderly d [] seen [] r where
  nodup := List.nodup_nil
  possible := List.nil_subset _
  new := by simp
  entered := by simp
  done := by simp
  followed := by simp
  grows := hgrows
  written := by simp

/-- Where there is a fault, more may have been due than was done. -/
lemma of_error {fault : Fault} (h : Orderly d own seen log (.error fault)) (hsub : own ⊆ own') :
    Orderly d own' seen log (.error fault) where
  nodup := h.nodup
  possible := h.possible
  new := fun e he hown => h.new e he fun hmem => hown (hsub hmem)
  entered := fun e he hown => h.entered e he fun hmem => hown (hsub hmem)
  done := by simp
  followed := by simp
  grows := by simp
  written := by simp

/-- A visit that is due, and what follows from it. -/
lemma visit {id : NodeId} {i : Nat} (h : Orderly d [] seen log r) (he : .visit id i ∈ events d)
    (hseen : id ∈ seen) : Orderly d [.visit id i] seen (.visit id i :: log) r where
  nodup := List.nodup_cons.2 ⟨fun hmem => h.new _ hmem (by simp) hseen, h.nodup⟩
  possible := List.cons_subset.2 ⟨he, h.possible⟩
  new := by
    intro e' hmem hown
    rcases List.mem_cons.1 hmem with rfl | hlog
    · simp at hown
    · exact h.new e' hlog (by simp)
  entered := by
    intro e' hmem hown
    rcases List.mem_cons.1 hmem with rfl | hlog
    · simp at hown
    · exact List.mem_cons_of_mem _ (h.entered e' hlog (by simp))
  done := by simp
  followed := by
    intro t hr l hl henter e he
    rcases List.mem_cons.1 henter with heq | hlog
    · simp at heq
    · exact List.mem_cons_of_mem _ (h.followed t hr l hl hlog he)
  grows := h.grows
  written := by
    intro t hr e' hmem
    rcases List.mem_cons.1 hmem with rfl | hlog
    · exact h.grows t hr hseen
    · exact h.written t hr e' hlog

/-- **Orderly records can be put one after the other.**  The first writes every layer that it is
about, so the second is about others, up to what was due from the beginning. -/
theorem append {t : Draft} (h : Orderly d own seen log (.ok t))
    (h' : Orderly d own' t.emitted log' r) (hdisj : own.Disjoint own')
    (hown : ∀ e ∈ own', e.layer ∈ seen) : Orderly d (own ++ own') seen (log ++ log') r where
  nodup := by
    refine List.nodup_append.2 ⟨h.nodup, h'.nodup, ?_⟩
    rintro e hlog _ hlog' rfl
    -- An event in both records is due in both, since the layers of all others are new.
    have hdue : e ∈ own' := by
      by_contra hnot
      exact h'.new e hlog' hnot (h.written t rfl e hlog)
    have hdue' : e ∈ own := by
      by_contra hnot
      exact h.new e hlog hnot (hown e hdue)
    exact hdisj hdue' hdue
  possible := List.append_subset.2 ⟨h.possible, h'.possible⟩
  new := by
    intro e hmem hnot
    rw [List.mem_append, not_or] at hnot
    rcases List.mem_append.1 hmem with hlog | hlog
    · exact h.new e hlog hnot.1
    · exact fun hseen => h'.new e hlog hnot.2 (h.grows t rfl hseen)
  entered := by
    intro e hmem hnot
    rw [List.mem_append, not_or] at hnot
    rcases List.mem_append.1 hmem with hlog | hlog
    · exact List.mem_append_left _ (h.entered e hlog hnot.1)
    · exact List.mem_append_right _ (h'.entered e hlog hnot.2)
  done := by
    intro t' hr e hmem
    rcases List.mem_append.1 hmem with hdue | hdue
    · exact List.mem_append_left _ (h.done t rfl hdue)
    · exact List.mem_append_right _ (h'.done t' hr hdue)
  followed := by
    intro t' hr l hl henter e he
    rcases List.mem_append.1 henter with hlog | hlog
    · exact List.mem_append_left _ (h.followed t rfl l hl hlog he)
    · exact List.mem_append_right _ (h'.followed t' hr l hl hlog he)
  grows := fun t' hr => List.Subset.trans (h.grows t rfl) (h'.grows t' hr)
  written := by
    intro t' hr e hmem
    rcases List.mem_append.1 hmem with hlog | hlog
    · exact h'.grows t' hr (h.written t rfl e hlog)
    · exact h'.written t' hr e hlog

/-- A layer is entered; then it is written, and the visits to its outputs are due. -/
lemma enter {l : Layer} (h : Orderly d (visits l) (seen ++ [l.id]) log r) (hl : l ∈ d.layers)
    (hnew : l.id ∉ seen) : Orderly d [] seen (.enter l.id :: log) r where
  nodup := by
    refine List.nodup_cons.2 ⟨fun hmem => h.new _ hmem ?_ ?_, h.nodup⟩
    · simp [visits]
    · simp [Event.layer]
  possible := List.cons_subset.2 ⟨enter_mem_events hl, h.possible⟩
  new := by
    intro e hmem _ hseen
    rcases List.mem_cons.1 hmem with rfl | hlog
    · exact hnew hseen
    -- What is due in the rest belongs to the layer that is entered, and so it is new as well.
    · by_cases hdue : e ∈ visits l
      · exact hnew (layer_of_mem_visits hdue ▸ hseen)
      · exact h.new e hlog hdue (List.mem_append_left _ hseen)
  entered := by
    intro e hmem _
    rcases List.mem_cons.1 hmem with rfl | hlog
    · exact List.mem_cons_self
    · by_cases hdue : e ∈ visits l
      · rw [layer_of_mem_visits hdue]
        exact List.mem_cons_self
      · exact List.mem_cons_of_mem _ (h.entered e hlog hdue)
  done := by simp
  followed := by
    intro t hr l' hl' henter e he
    rcases List.mem_cons.1 henter with heq | hlog
    -- The layer itself: its visits were due, and all of them are done.
    · obtain rfl : l' = l := eq_of_mem_layers hl' hl (Event.enter.inj heq)
      exact List.mem_cons_of_mem _ (h.done t hr he)
    · exact List.mem_cons_of_mem _ (h.followed t hr l' hl' hlog he)
  grows := fun t hr _ hid => h.grows t hr (List.mem_append_left _ hid)
  written := by
    intro t hr e hmem
    rcases List.mem_cons.1 hmem with rfl | hlog
    · exact h.grows t hr (by simp [Event.layer])
    · exact h.written t hr e hlog

end Orderly

/-! ## Recorded runs -/

/-- The bounded run has a result, which is the given one, and an orderly record. -/
def Recorded.Leads (d : Document) (own : List Event) (seen : List NodeId) (x : Recorded Draft)
    (r : Except Fault Draft) : Prop :=
  ∃ log, x = some (log, r) ∧ Orderly d own seen log r

namespace Recorded.Leads

variable {own own' : List Event} {seen : List NodeId} {x : Recorded Draft}
  {r : Except Fault Draft}

lemma quietly (hgrows : ∀ t, r = .ok t → seen ⊆ t.emitted) :
    Leads d [] seen (Recorded.quietly (some r)) r :=
  ⟨[], rfl, .nil hgrows⟩

lemma quietly_ok (hgrows : seen ⊆ t.emitted) :
    Leads d [] seen (Recorded.quietly (some (.ok t))) (.ok t) :=
  quietly fun _ heq => Except.ok.inj heq ▸ hgrows

lemma quietly_error (fault : Fault) :
    Leads d [] seen (Recorded.quietly (some (.error fault))) (.error fault) :=
  quietly (by simp)

lemma visit {id : NodeId} {i : Nat} (h : Leads d [] seen x r) (he : .visit id i ∈ events d)
    (hseen : id ∈ seen) : Leads d [.visit id i] seen (x.record (.visit id i)) r := by
  obtain ⟨log, rfl, horderly⟩ := h
  exact ⟨.visit id i :: log, rfl, horderly.visit he hseen⟩

/-- A run and what it continues with. -/
lemma andThen {f : Draft → Recorded Draft} {g : Draft → Except Fault Draft}
    (h : Leads d own seen x r)
    (hf : ∀ t, r = .ok t → seen ⊆ t.emitted → Leads d own' t.emitted (f t) (g t))
    (hdisj : own.Disjoint own') (hown : ∀ e ∈ own', e.layer ∈ seen) :
    Leads d (own ++ own') seen (x.andThen f) (r.bind g) := by
  obtain ⟨log, rfl, horderly⟩ := h
  cases r with
  | error fault => exact ⟨log, rfl, horderly.of_error (List.subset_append_left _ _)⟩
  | ok t =>
    obtain ⟨log', hft, horderly'⟩ := hf t rfl (horderly.grows t rfl)
    refine ⟨log ++ log', ?_, horderly.append horderly' hdisj hown⟩
    simp only [Recorded.andThen, Option.bind_some, hft, Option.map_some]
    rfl

end Recorded.Leads

/-! ## A bound that covers the unwritten layers -/

lemma follow_nil (t : Draft) : Draft.follow d [] t = .ok t := by
  rw [Draft.follow]

/-- A stack of connections is worked through from its top. -/
lemma follow_append (links links' : List (Layer × NodeId)) (t : Draft) :
    Draft.follow d (links ++ links') t =
      (Draft.follow d links t).bind (Draft.follow d links') := by
  induction links, t using Walk.visit_induction (d := d) with
  | hnil t =>
    rw [List.nil_append, follow_nil]
    rfl
  | hcons p id rest t ih =>
    rw [List.cons_append, Walk.follow_cons, Walk.follow_cons]
    cases hvisit : Walk.visit d t p id with
    | error fault => rfl
    | ok result => simpa only [List.append_assoc] using ih result.1 result.2 hvisit

/-- Writes a layer and follows its connections. -/
def emit (d : Document) (l : Layer) (call : Option String) (t : Draft) : Except Fault Draft :=
  (Draft.writeLayer d t l call).bind (Draft.follow d (connections l))

/-- A single connection: a layer that is to be written now is emitted. -/
lemma follow_single (source : Layer) (id : NodeId) (t : Draft) :
    Draft.follow d [(source, id)] t =
      match d.get? id with
      | none => .error (.danglingLink source id)
      | some (.model m) => Draft.reachModel d t source m
      | some (.layer l) =>
        if l.mode = .ca then .error (.inlineInFlow (some source) l)
        else
          match Draft.reachLayer d t source l with
          | .error fault => .error fault
          | .ok (ledger, none) => .ok { t with ledger := ledger }
          | .ok (ledger, some call) => emit d l (some call) { t with ledger := ledger }
      | some target => .error (.linkToValue source target) := by
  rw [Walk.follow_cons, Walk.visit]
  cases d.get? id with
  | none => rfl
  | some target =>
    cases target with
    | model m =>
      dsimp only
      cases Draft.reachModel d t source m with
      | error fault => rfl
      | ok t' => exact follow_nil t'
    | layer l =>
      dsimp only
      by_cases hmode : l.mode = .ca
      · rw [if_pos hmode, if_pos hmode]
      · rw [if_neg hmode, if_neg hmode]
        cases Draft.reachLayer d t source l with
        | error fault => rfl
        | ok result =>
          obtain ⟨ledger, call⟩ := result
          cases call with
          | none => exact follow_nil _
          | some call =>
            dsimp only
            unfold emit
            cases Draft.writeLayer d { t with ledger := ledger } l (some call) with
            | error fault => rfl
            | ok t' => exact congrArg (Draft.follow d · t') (List.append_nil _)
    | _ => rfl

/-- The program emits the layers that are new, as long as no more than `n` layers are
unwritten. -/
def Emits (d : Document) (n : Nat) (program : Layer → Option String → Draft → Recorded Draft) :
    Prop :=
  ∀ l call t, d.get? l.id = some (.layer l) → l.id ∉ t.emitted → t.unwritten d ≤ n →
    Leads d [] t.emitted (program l call t) (emit d l call t)

/-- The visits to some outputs of a layer, which are given with their positions. -/
def visitsAt (l : Layer) (positions : List (NodeId × Nat)) : List Event :=
  positions.map fun p => .visit l.id p.2

section Visits

variable {n : Nat} {program : Layer → Option String → Draft → Recorded Draft}
  (hk : (callees d).length ≤ k) (hemits : Emits d n program) (source : Layer)

include hk hemits

/-- A connection is followed, and what it leads to is done before anything else. -/
lemma leads_visitWithin (id : NodeId) (ht : t.unwritten d ≤ n) :
    Leads d [] t.emitted (visitWithin d k program source id t)
      (Draft.follow d [(source, id)] t) := by
  rw [follow_single, visitWithin]
  cases hget : d.get? id with
  | none => exact Leads.quietly_error _
  | some target =>
    cases target with
    | model m =>
      dsimp only
      rw [reachModelWithin_eq hk]
      exact Leads.quietly fun t' hreach _ hid => Draft.mem_emitted_reachModel hreach hid
    | layer l =>
      obtain rfl : l.id = id := Document.id_of_get? hget
      dsimp only
      by_cases hmode : l.mode = .ca
      · rw [if_pos hmode, if_pos hmode]
        exact Leads.quietly_error _
      · rw [if_neg hmode, if_neg hmode]
        cases hreach : Draft.reachLayer d t source l with
        | error fault => exact Leads.quietly_error fault
        | ok result =>
          obtain ⟨ledger, call⟩ := result
          cases call with
          | none => exact Leads.quietly_ok fun _ hid => hid
          | some call =>
            -- There is a call only if the layer has no statement yet.
            have hnew := Draft.not_mem_emitted_of_reachLayer hreach
            exact hemits l (some call) { t with ledger := ledger } hget hnew ht
    | _ => exact Leads.quietly_error _

/-- The positions are visited one after the other, each of them once. -/
lemma leads_visitEach (positions : List (NodeId × Nat))
    (hnodup : (visitsAt source positions).Nodup) (hpossible : visitsAt source positions ⊆ events d)
    (hsource : source.id ∈ t.emitted) (ht : t.unwritten d ≤ n) :
    Leads d (visitsAt source positions) t.emitted (visitEach d k program source positions t)
      (Draft.follow d (positions.map fun p => (source, p.1)) t) := by
  induction positions generalizing t with
  | nil =>
    rw [List.map_nil, follow_nil]
    exact Leads.quietly_ok fun _ hid => hid
  | cons p rest ih =>
    obtain ⟨id, i⟩ := p
    rw [visitsAt, List.map_cons, List.nodup_cons] at hnodup
    rw [visitsAt, List.map_cons, List.cons_subset] at hpossible
    have hfirst := (leads_visitWithin hk hemits source id ht).visit hpossible.1 hsource
    have hdisjoint : [Event.visit source.id i].Disjoint (visitsAt source rest) :=
      List.disjoint_cons_left.2 ⟨hnodup.1, List.disjoint_nil_left _⟩
    have hdue : ∀ e ∈ visitsAt source rest, e.layer ∈ t.emitted := by
      intro e he
      obtain ⟨q, -, rfl⟩ := List.mem_map.1 he
      exact hsource
    -- The bound still covers what is unwritten, for the first visit has only written more.
    have hall := hfirst.andThen
      (fun t' _ hgrows => ih hnodup.2 hpossible.2 (hgrows hsource)
        (Nat.le_trans (remaining_le fun _ hid => hgrows hid) ht)) hdisjoint hdue
    rw [← follow_append] at hall
    exact hall

end Visits

lemma visitsAt_zipIdx (l : Layer) : visitsAt l l.output.zipIdx = visits l := by
  rw [visits, List.range_eq_range', ← List.zipIdx_map_snd 0 l.output, List.map_map]
  rfl

lemma map_zipIdx_connection (l : Layer) :
    (l.output.zipIdx.map fun p => (l, p.1)) = connections l :=
  calc
    l.output.zipIdx.map (fun p => (l, p.1)) =
        (l.output.zipIdx.map Prod.fst).map fun id => (l, id) := by rw [List.map_map]; rfl
    _ = connections l := by rw [List.zipIdx_map_fst, connections]

lemma nodup_visits (l : Layer) : (visits l).Nodup :=
  List.nodup_range.map fun _ _ h => (Event.visit.inj h).2

lemma unwritten_pos {l : Layer} (hl : l ∈ d.layers) (hnew : l.id ∉ t.emitted) :
    0 < t.unwritten d :=
  List.countP_pos_iff.2 ⟨l.id, List.mem_map_of_mem hl, by simpa using hnew⟩

lemma unwritten_le_length : t.unwritten d ≤ d.layers.length := by
  simpa [Draft.unwritten] using remaining_le_length (d.layers.map (·.id)) t.emitted

/-- **A bound that covers the unwritten layers is never used up.**  The layer that is entered is
one of them, and it is written before its connections are followed. -/
theorem emits_emitWithin (hk : (callees d).length ≤ k) (n : Nat) :
    Emits d n (emitWithin d k n) := by
  induction n with
  | zero =>
    intro l call t hget hnew ht
    -- The layer itself is unwritten, so the bound is not zero.
    have hpos := unwritten_pos (Document.mem_layers_iff.2 hget) hnew
    omega
  | succ n ih =>
    intro l call t hget hnew ht
    have hl : l ∈ d.layers := Document.mem_layers_iff.2 hget
    rw [emitWithin, writeLayerWithin_eq hk, emit]
    cases hwrite : Draft.writeLayer d t l call with
    | error fault =>
      have hstop : Orderly d [] (t.emitted ++ [l.id]) [] (.error fault) := .nil (by simp)
      exact ⟨[.enter l.id], rfl, (hstop.of_error (List.nil_subset _)).enter hl hnew⟩
    | ok t' =>
      have hemitted := Draft.emitted_writeLayer hwrite
      have hlt : t'.unwritten d < t.unwritten d :=
        @Draft.unwritten_writeLayer_lt d t t' l l.id call t.ledger hget hnew hwrite
      have hvisits := leads_visitEach hk ih l l.output.zipIdx (t := t')
        (by rw [visitsAt_zipIdx]; exact nodup_visits l)
        (by rw [visitsAt_zipIdx]; exact visits_subset_events hl) (by simp [hemitted]) (by omega)
      rw [visitsAt_zipIdx, map_zipIdx_connection, hemitted] at hvisits
      obtain ⟨log, hlog, horderly⟩ := hvisits
      refine ⟨.enter l.id :: log, ?_, horderly.enter hl hnew⟩
      simp only [Recorded.quietly, Option.map_some, Recorded.andThen, Option.bind_some, hlog,
        Recorded.record, List.nil_append]
      rfl

/-! ## Whole walks -/

lemma enterAll_cons (l : Layer) (rest : List Layer) (t : Draft) :
    Draft.enterAll d (l :: rest) t =
      if l.mode = .ca then .error (.inlineInFlow none l)
      else if l.id ∈ t.emitted then Draft.enterAll d rest t
      else (emit d l none t).bind (Draft.enterAll d rest) := by
  rw [Draft.enterAll, Draft.enter, emit]
  by_cases hmode : l.mode = .ca
  · rw [if_pos hmode, if_pos hmode]
  · rw [if_neg hmode, if_neg hmode]
    by_cases hold : l.id ∈ t.emitted
    · rw [if_pos hold, if_pos hold]
    · rw [if_neg hold, if_neg hold]
      cases Draft.writeLayer d t l none with
      | error fault => rfl
      | ok t' =>
        dsimp only [Except.bind]
        cases Draft.follow d (connections l) t' <;> rfl

lemma exists_enterAll_of_walk {c : Compilation} (h : walk d = .ok c) :
    ∃ t, Draft.enterAll d d.entrances {} = .ok t := by
  unfold walk at h
  split at h
  · simp at h
  · rename_i t hall
    exact ⟨t, hall⟩

/-- The entrances are started at one after the other. -/
lemma leads_enterEach (hk : (callees d).length ≤ k) {n : Nat} {entrances : List Layer}
    (hentrances : entrances ⊆ d.layers) (ht : t.unwritten d ≤ n) :
    Leads d [] t.emitted (enterEach d k n entrances t) (Draft.enterAll d entrances t) := by
  induction entrances generalizing t with
  | nil => exact Leads.quietly_ok fun _ hid => hid
  | cons l rest ih =>
    rw [List.cons_subset] at hentrances
    rw [enterEach, enterAll_cons]
    by_cases hmode : l.mode = .ca
    · rw [if_pos hmode, if_pos hmode]
      exact Leads.quietly_error _
    · rw [if_neg hmode, if_neg hmode]
      -- An entrance may have been written from another one before its turn comes.
      by_cases hold : l.id ∈ t.emitted
      · rw [if_pos hold, if_pos hold]
        exact ih hentrances.2 ht
      · rw [if_neg hold, if_neg hold]
        have hfirst := emits_emitWithin hk n l none t
          (Document.mem_layers_iff.1 hentrances.1) hold ht
        have hrest : ∀ t', emit d l none t = .ok t' → t.emitted ⊆ t'.emitted →
            Leads d [] t'.emitted (enterEach d k n rest t') (Draft.enterAll d rest t') :=
          fun t' _ hgrows => ih hentrances.2
            (Nat.le_trans (remaining_le fun _ hid => hgrows hid) ht)
        exact hfirst.andThen hrest (List.disjoint_nil_left _) (by simp)

/-- **Every walk ends within the size of its document.**  Allow as many layers to be under way at a
time as the document has layers, and as many nested calls as it has units and inline layers: the
bounded walk leads to what the walk leads to, a compilation or a fault.  On the way no layer is
entered twice, no position of a layer's outputs is visited twice, and outputs are visited only of a
layer that was entered; all of them, if there is no fault.  So the walk has at most as many events
as the document has layers and outputs. -/
theorem walk_within_size (d : Document) :
    ∃ log, walkWithin d (callees d).length d.layers.length = some (log, walk d) ∧
      log.Nodup ∧ log ⊆ events d ∧
      (∀ id i, .visit id i ∈ log → .enter id ∈ log) ∧
      (∀ c, walk d = .ok c → ∀ l ∈ d.layers, .enter l.id ∈ log → visits l ⊆ log) ∧
      log.length ≤ d.layers.length + (d.layers.map fun l => l.output.length).sum := by
  have hsize : Draft.unwritten d {} ≤ d.layers.length := unwritten_le_length
  have hentrances : d.entrances ⊆ d.layers := List.filter_subset_self _
  obtain ⟨log, hlog, horderly⟩ := leads_enterEach (Nat.le_refl _) hentrances hsize
  refine ⟨log, ?_, horderly.nodup, horderly.possible, ?_, ?_, ?_⟩
  · rw [walkWithin, hlog, walk]
    cases Draft.enterAll d d.entrances {} with
    | error fault => rfl
    | ok t => simp [Recorded.andThen, Recorded.quietly]
  · exact fun id i hvisit => horderly.entered _ hvisit (by simp)
  · intro c hwalk
    obtain ⟨t, hall⟩ := exists_enterAll_of_walk hwalk
    exact horderly.followed t hall
  · rw [← length_events]
    exact (List.subperm_of_subset horderly.nodup horderly.possible).length_le

/-- A document whose connections are listed twice, lead back, and lead to where they start. -/
def whirl : Document where
  entities :=
    [.layer
      { id := .ofText "a", var := "x", className := "Input", entrance := true,
        output := [.ofText "b"] },
    .layer
      { id := .ofText "b", var := "y", className := "Dense", input := .single (.ofText "a"),
        output := [.ofText "c", .ofText "c"] },
    .layer
      { id := .ofText "c", var := "z", className := "Dense", input := .single (.ofText "b"),
        output := [.ofText "b", .ofText "c"] }]
  nodup := by decide

/-- The three layers are under way at the same time, and every position is visited. -/
theorem walk_within_size_whirl :
    ∃ c, walk whirl = .ok c ∧
      walkWithin whirl 0 3 =
        some ([.enter (.ofText "a"), .visit (.ofText "a") 0, .enter (.ofText "b"),
          .visit (.ofText "b") 0, .enter (.ofText "c"), .visit (.ofText "c") 0,
          .visit (.ofText "c") 1, .visit (.ofText "b") 1], .ok c) ∧
      walkWithin whirl 0 2 = none := by
  obtain ⟨log, hlog, -⟩ := walk_within_size whirl
  refine ⟨?c, ?walk, ?within, ?beyond⟩
  case within => rfl
  case beyond => rfl
  case walk =>
    have hsame : some (log, walk whirl) = walkWithin whirl 0 3 := hlog.symm
    exact (Prod.mk.inj (Option.some.inj hsame)).2

end NetDiagram.Flow
