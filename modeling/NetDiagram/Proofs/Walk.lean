import NetDiagram.Flow.Compilation
import NetDiagram.Proofs.Document

/-!
# The steps of a walk

Statements are written by two nested recursions, one over the entrances and one over a stack of
connections.  This file lays them out as a machine.  A `Walk` holds the entrances that are still
to be started at, the connections that are still to be followed, and the draft; `Walk.next` takes
the first connection, or else the first entrance.  Facts about a whole compilation are then facts
that every single step keeps.

## Main statements

* `Walk.outcome_eq`: a step does not change what a walk leads to.
* `Walk.next_induction`: every walk ends.
* `Walk.Reached.of_outcome`: it ends with a draft, or with a step that fails.
* `Walk.Step.of_next`: what a successful step can do, one rule for each way to succeed.
* `Walk.Reached.induction`: what holds at the start and is kept by every rule holds throughout.
* `exists_reached_of_compile`: a compilation is the finished draft of a walk from the start.
* `exists_next_error_of_compile`: a fault of a compilation is the fault of a step.
-/

namespace NetDiagram.Flow

/-- A walk under way. -/
structure Walk where
  /-- The entrances that are still to be started at. -/
  entrances : List Layer
  /-- The connections that are still to be followed, the next one first. -/
  links : List (Layer × NodeId)
  draft : Draft

namespace Walk

variable {d : Document} {w w' : Walk} {t t' : Draft}

/-- The walk before its first step. -/
def start (d : Document) : Walk :=
  ⟨d.entrances, [], {}⟩

/-! ## Single steps -/

/-- Follows a connection.  The result is the connections that come next and the draft. -/
def visit (d : Document) (t : Draft) (source : Layer) (id : NodeId) :
    Except Fault (List (Layer × NodeId) × Draft) :=
  match d.get? id with
  | none => .error (.danglingLink source id)
  | some (.model m) =>
    match Draft.reachModel d t source m with
    | .error fault => .error fault
    | .ok t' => .ok ([], t')
  | some (.layer l) =>
    if l.mode = .ca then .error (.inlineInFlow (some source) l)
    else
      match Draft.reachLayer d t source l with
      | .error fault => .error fault
      | .ok (ledger, none) => .ok ([], { t with ledger := ledger })
      | .ok (ledger, some call) =>
        match Draft.writeLayer d { t with ledger := ledger } l (some call) with
        | .error fault => .error fault
        | .ok t' => .ok (connections l, t')
  | some target => .error (.linkToValue source target)

/-- The next step; a walk with nothing to do stays as it is. -/
def next (d : Document) : Walk → Except Fault Walk
  | ⟨entrances, (source, id) :: rest, t⟩ =>
    match visit d t source id with
    | .error fault => .error fault
    | .ok (new, t') => .ok ⟨entrances, new ++ rest, t'⟩
  | ⟨l :: entrances, [], t⟩ =>
    if l.mode = .ca then .error (.inlineInFlow none l)
    else if l.id ∈ t.emitted then .ok ⟨entrances, [], t⟩
    else
      match Draft.writeLayer d t l none with
      | .error fault => .error fault
      | .ok t' => .ok ⟨entrances, connections l, t'⟩
  | ⟨[], [], t⟩ => .ok ⟨[], [], t⟩

/-! ## What a walk leads to -/

/-- What is left to do, by the two recursions. -/
def outcome (d : Document) (w : Walk) : Except Fault Draft :=
  match Draft.follow d w.links w.draft with
  | .error fault => .error fault
  | .ok t => Draft.enterAll d w.entrances t

lemma outcome_start : (start d).outcome d = Draft.enterAll d d.entrances {} := by
  simp [outcome, start, Draft.follow]

@[simp] lemma outcome_finished (t : Draft) : outcome d ⟨[], [], t⟩ = .ok t := by
  simp [outcome, Draft.follow, Draft.enterAll]

lemma follow_cons (source : Layer) (id : NodeId) (rest : List (Layer × NodeId)) (t : Draft) :
    Draft.follow d ((source, id) :: rest) t =
      match visit d t source id with
      | .error fault => .error fault
      | .ok (new, t') => Draft.follow d (new ++ rest) t' := by
  rw [Draft.follow, visit]
  -- The recursion matches on equations for its termination, so each case is opened by `split`.
  split
  · simp [*]
  · rename_i m hget
    rw [hget]
    dsimp only
    split <;> simp [*]
  · rename_i l hget
    rw [hget]
    dsimp only
    split
    · rfl
    · split
      · simp [*]
      · simp [*]
      · rename_i hreach
        rw [hreach]
        dsimp only
        split <;> simp [*]
  · rename_i target hmodel hlayer hget
    rw [hget]
    cases target with
    | model m => exact absurd rfl (hmodel m)
    | layer l => exact absurd rfl (hlayer l)
    | _ => rfl

/-- **A step does not change what a walk leads to.** -/
theorem outcome_eq (d : Document) (w : Walk) :
    w.outcome d =
      match w.next d with
      | .error fault => .error fault
      | .ok w' => w'.outcome d := by
  obtain ⟨entrances, links, t⟩ := w
  -- The stack is worked through before the next entrance is looked at.
  cases links with
  | cons link rest =>
    obtain ⟨source, id⟩ := link
    simp only [outcome, next, follow_cons]
    cases visit d t source id <;> rfl
  | nil =>
    cases entrances with
    | nil => simp [next]
    | cons l entrances =>
      simp only [outcome, next, Draft.follow, Draft.enterAll, Draft.enter]
      by_cases hmode : l.mode = .ca
      · simp [hmode]
      · by_cases hold : l.id ∈ t.emitted
        · simp [hmode, hold, Draft.follow]
        · simp only [hmode, hold, if_false]
          cases Draft.writeLayer d t l none <;> rfl

/-! ## Walks from the start -/

/-- The walk occurs in the compilation of the document. -/
inductive Reached (d : Document) : Walk → Prop
  | start : Reached d (start d)
  | next {w w' : Walk} (before : Reached d w) (step : w.next d = .ok w') : Reached d w'

lemma Reached.outcome (h : Reached d w) :
    w.outcome d = Draft.enterAll d d.entrances {} := by
  induction h with
  | start => exact outcome_start
  | @next w w' _ hnext ih => rw [← ih, outcome_eq d w, hnext]

/-- Induction over the connections that are followed: a claim about a stack may be assumed of the
stack that its first connection leads to. -/
lemma visit_induction {P : List (Layer × NodeId) → Draft → Prop} (hnil : ∀ t, P [] t)
    (hcons : ∀ p id rest t,
      (∀ new t', visit d t p id = .ok (new, t') → P (new ++ rest) t') → P ((p, id) :: rest) t)
    (links : List (Layer × NodeId)) (t : Draft) : P links t := by
  induction links, t using Draft.follow.induct d with
  | case1 t => exact hnil t
  | case4 p id rest t m hget t₁ hreach ih =>
    refine hcons p id rest t fun new t' hvisit => ?_
    obtain ⟨rfl, rfl⟩ : [] = new ∧ t₁ = t' := by simpa [visit, hget, hreach] using hvisit
    exact ih
  | case7 p id rest t l hget hmode ledger hreach ih =>
    refine hcons p id rest t fun new t' hvisit => ?_
    obtain ⟨rfl, rfl⟩ : [] = new ∧ { t with ledger := ledger } = t' := by
      simpa [visit, hget, hmode, hreach] using hvisit
    exact ih
  | case9 p id rest t l hget hmode ledger call hreach t₁ hwrite ih =>
    refine hcons p id rest t fun new t' hvisit => ?_
    obtain ⟨rfl, rfl⟩ : connections l = new ∧ t₁ = t' := by
      simpa [visit, hget, hmode, hreach, hwrite] using hvisit
    exact ih
  -- In the other cases the first connection cannot be followed.
  | case2 p id rest t hget => exact hcons p id rest t fun _ _ h => by simp [visit, hget] at h
  | case3 p id rest t m hget fault hreach =>
    exact hcons p id rest t fun _ _ h => by simp [visit, hget, hreach] at h
  | case5 p id rest t l hget hmode =>
    exact hcons p id rest t fun _ _ h => by simp [visit, hget, hmode] at h
  | case6 p id rest t l hget hmode fault hreach =>
    exact hcons p id rest t fun _ _ h => by simp [visit, hget, hmode, hreach] at h
  | case8 p id rest t l hget hmode ledger call hreach fault hwrite =>
    exact hcons p id rest t fun _ _ h => by simp [visit, hget, hmode, hreach, hwrite] at h
  | case10 p id rest t target hmodel hlayer hget =>
    refine hcons p id rest t fun _ _ h => ?_
    cases target with
    | model m => exact absurd rfl (hmodel m)
    | layer l => exact absurd rfl (hlayer l)
    | _ => simp [visit, hget] at h

/-- **Every walk ends.**  What holds of the walks with nothing to do, and of a walk if it holds of
its next one, holds of all walks. -/
theorem next_induction {P : Walk → Prop} (hend : ∀ t, P ⟨[], [], t⟩)
    (hnext : ∀ w, (∀ w', w.next d = .ok w' → P w') → P w) (w : Walk) : P w := by
  -- The stack ends because every visit ends; then one entrance less is left.
  have hlinks : ∀ entrances, (∀ t, P ⟨entrances, [], t⟩) → ∀ links t, P ⟨entrances, links, t⟩ := by
    intro entrances hdone links t
    induction links, t using visit_induction (d := d) with
    | hnil t => exact hdone t
    | hcons p id rest t ih =>
      refine hnext _ fun w' hw' => ?_
      simp only [next] at hw'
      split at hw'
      · simp at hw'
      · rename_i hvisit
        cases hw'
        exact ih _ _ hvisit
  obtain ⟨entrances, links, t⟩ := w
  induction entrances generalizing links t with
  | nil => exact hlinks [] hend links t
  | cons l entrances ih =>
    refine hlinks (l :: entrances) (fun t => hnext _ fun w' hw' => ?_) links t
    obtain ⟨links', t', rfl⟩ : ∃ links' t', w' = ⟨entrances, links', t'⟩ := by
      simp only [next] at hw'
      split at hw'
      · simp at hw'
      · split at hw'
        · cases hw'
          exact ⟨_, _, rfl⟩
        · split at hw'
          · simp at hw'
          · cases hw'
            exact ⟨_, _, rfl⟩
    exact ih links' t'

/-- What a walk leads to is what its last step ends with: the draft of a walk with nothing to do,
or the fault of a step. -/
theorem Reached.of_outcome (h : Reached d w) :
    match w.outcome d with
    | .ok t => Reached d ⟨[], [], t⟩
    | .error fault => ∃ w', Reached d w' ∧ w'.next d = .error fault := by
  induction w using next_induction (d := d) with
  | hend t => simpa using h
  | hnext w ih =>
    rw [outcome_eq]
    cases hnext : w.next d with
    | error fault => exact ⟨w, h, hnext⟩
    | ok w' => exact ih w' hnext (h.next hnext)

/-! ## What a step can do -/

/-- The successful steps.  A node that waits is known to the ledger by its roles. -/
inductive Step (d : Document) : Walk → Walk → Prop
  /-- The entrance was reached before. -/
  | skip {l : Layer} {entrances : List Layer} {t : Draft} (old : l.id ∈ t.emitted) :
      Step d ⟨l :: entrances, [], t⟩ ⟨entrances, [], t⟩
  | enter {l : Layer} {entrances : List Layer} {t t' : Draft} (mode : l.mode ≠ .ca)
      (new : l.id ∉ t.emitted) (write : Draft.writeLayer d t l none = .ok t') :
      Step d ⟨l :: entrances, [], t⟩ ⟨entrances, connections l, t'⟩
  /-- The target is a layer that was written before; its inputs are not looked at. -/
  | again {p l : Layer} {entrances : List Layer} {rest : List (Layer × NodeId)} {t : Draft}
      (get : d.get? l.id = some (.layer l)) (mode : l.mode ≠ .ca) (old : l.id ∈ t.emitted) :
      Step d ⟨entrances, (p, l.id) :: rest, t⟩ ⟨entrances, rest, t⟩
  | single {p l : Layer} {entrances : List Layer} {rest : List (Layer × NodeId)} {t t' : Draft}
      (get : d.get? l.id = some (.layer l)) (mode : l.mode ≠ .ca) (new : l.id ∉ t.emitted)
      (input : l.input = .single p.id) (write : Draft.writeLayer d t l (some p.var) = .ok t') :
      Step d ⟨entrances, (p, l.id) :: rest, t⟩ ⟨entrances, connections l ++ rest, t'⟩
  /-- Something that the target waits for is outstanding. -/
  | pending {p : Layer} {e : Entity} {entrances : List Layer} {rest : List (Layer × NodeId)}
      {t : Draft} {ledger : Ledger} (get : d.get? e.id = some e)
      (arrive : (t.ledger.register e.id e.roles).arrive e.id p.id = (.pending, ledger)) :
      Step d ⟨entrances, (p, e.id) :: rest, t⟩ ⟨entrances, rest, { t with ledger := ledger }⟩
  | joinLayer {p l : Layer} {ids : List NodeId} {entrances : List Layer}
      {rest : List (Layer × NodeId)} {t t' : Draft} {ledger : Ledger}
      (get : d.get? l.id = some (.layer l)) (mode : l.mode ≠ .ca) (new : l.id ∉ t.emitted)
      (input : l.input = .many ids)
      (arrive : (t.ledger.register l.id (Entity.layer l).roles).arrive l.id p.id =
        (.satisfied, ledger))
      (write : Draft.writeLayer d { t with ledger := ledger } l
        (some (bracket (Draft.predecessorVars d ids))) = .ok t') :
      Step d ⟨entrances, (p, l.id) :: rest, t⟩ ⟨entrances, connections l ++ rest, t'⟩
  | joinModel {p : Layer} {m : Model} {entrances : List Layer} {rest : List (Layer × NodeId)}
      {t t' : Draft} {ledger : Ledger} (get : d.get? m.id = some (.model m))
      (arrive : (t.ledger.register m.id (Entity.model m).roles).arrive m.id p.id =
        (.satisfied, ledger))
      (write : Draft.writeModel d { t with ledger := ledger } m = .ok t')
      (set : ∀ name, name = Model.inputsName ∨ name = Model.outputsName →
        Draft.roleIds m name = .ok (m.listed name)) :
      Step d ⟨entrances, (p, m.id) :: rest, t⟩ ⟨entrances, rest, t'⟩

lemma listed_of_roleIds {m : Model} {name : String} {ids : List NodeId}
    (h : Draft.roleIds m name = .ok ids) : m.listed name = ids := by
  unfold Draft.roleIds at h
  split at h
  · rename_i a ha
    split at h
    · simp at h
    · simpa [Model.listed, ha] using h
  · simp at h

lemma roleIds_cases (m : Model) (name : String) :
    Draft.roleIds m name = .error (.missingRole m name) ∨
      Draft.roleIds m name = .ok (m.listed name) := by
  unfold Draft.roleIds Model.listed
  cases m.arg? name with
  | none => exact Or.inl rfl
  | some a =>
    by_cases hunset : a.isUnset = true
    · exact Or.inl (if_pos hunset)
    · exact Or.inr (if_neg hunset)

/-- A layer that is reached: it was written before, or it waits, or it is written now. -/
lemma Step.of_reachLayer {p l : Layer} {entrances : List Layer} {rest : List (Layer × NodeId)}
    {ledger : Ledger} {call : Option String} (hget : d.get? l.id = some (.layer l))
    (hmode : l.mode ≠ .ca) (hreach : Draft.reachLayer d t p l = .ok (ledger, call)) :
    match call with
    | none =>
      Step d ⟨entrances, (p, l.id) :: rest, t⟩ ⟨entrances, rest, { t with ledger := ledger }⟩
    | some text => ∀ t', Draft.writeLayer d { t with ledger := ledger } l (some text) = .ok t' →
      Step d ⟨entrances, (p, l.id) :: rest, t⟩ ⟨entrances, connections l ++ rest, t'⟩ := by
  unfold Draft.reachLayer at hreach
  split at hreach
  · rename_i hold
    cases hreach
    exact .again hget hmode hold
  · rename_i hnew
    split at hreach
    · rename_i id hinput
      split at hreach
      · rename_i hid
        cases hreach
        intro t' hwrite
        exact .single hget hmode hnew (hid ▸ hinput) hwrite
      · simp at hreach
    · rename_i ids hinput
      have hroles : (Entity.layer l).roles = [ids] := by simp [Entity.roles, hinput, Inputs.ids]
      rw [← hroles] at hreach
      split at hreach
      · rename_i ledger' harrive
        cases hreach
        intro t' hwrite
        exact .joinLayer hget hmode hnew hinput harrive hwrite
      · rename_i ledger' harrive
        cases hreach
        exact .pending (e := .layer l) hget harrive
      · simp at hreach
    · simp at hreach

lemma Step.of_reachModel {p : Layer} {m : Model} {entrances : List Layer}
    {rest : List (Layer × NodeId)} (hget : d.get? m.id = some (.model m))
    (hreach : Draft.reachModel d t p m = .ok t') :
    Step d ⟨entrances, (p, m.id) :: rest, t⟩ ⟨entrances, rest, t'⟩ := by
  unfold Draft.reachModel at hreach
  split at hreach
  · simp at hreach
  · rename_i inputs hinputs
    split at hreach
    · simp at hreach
    · rename_i outputs houtputs
      have hroles : (Entity.model m).roles = [inputs, outputs] := by
        simp [Entity.roles, listed_of_roleIds hinputs, listed_of_roleIds houtputs]
      rw [← hroles] at hreach
      split at hreach
      · rename_i ledger harrive
        refine .joinModel hget harrive hreach ?_
        rintro name (rfl | rfl)
        · rw [hinputs, listed_of_roleIds hinputs]
        · rw [houtputs, listed_of_roleIds houtputs]
      · rename_i ledger harrive
        cases hreach
        exact .pending (e := .model m) hget harrive
      · simp at hreach

lemma Step.of_visit {p : Layer} {id : NodeId} {entrances : List Layer}
    {rest new : List (Layer × NodeId)} (h : visit d t p id = .ok (new, t')) :
    Step d ⟨entrances, (p, id) :: rest, t⟩ ⟨entrances, new ++ rest, t'⟩ := by
  unfold visit at h
  split at h
  · simp at h
  · rename_i m hget
    obtain rfl : m.id = id := Document.id_of_get? hget
    split at h
    · simp at h
    · rename_i hreach
      cases h
      exact .of_reachModel hget hreach
  · rename_i l hget
    obtain rfl : l.id = id := Document.id_of_get? hget
    split at h
    · simp at h
    · rename_i hmode
      split at h
      · simp at h
      · rename_i hreach
        cases h
        exact Step.of_reachLayer hget hmode hreach
      · rename_i hreach
        split at h
        · simp at h
        · rename_i hwrite
          cases h
          exact Step.of_reachLayer hget hmode hreach _ hwrite
  · simp at h

/-- **What a step can do.** -/
theorem Step.of_next (h : w.next d = .ok w') : w' = w ∨ Step d w w' := by
  obtain ⟨entrances, links, t⟩ := w
  cases links with
  | cons link rest =>
    obtain ⟨p, id⟩ := link
    simp only [next] at h
    split at h
    · simp at h
    · rename_i hvisit
      cases h
      exact Or.inr (.of_visit hvisit)
  | nil =>
    cases entrances with
    | nil =>
      simp only [next, Except.ok.injEq] at h
      exact Or.inl h.symm
    | cons l entrances =>
      simp only [next] at h
      split at h
      · simp at h
      · rename_i hmode
        split at h
        · rename_i hold
          cases h
          exact Or.inr (.skip hold)
        · rename_i hnew
          split at h
          · simp at h
          · rename_i hwrite
            cases h
            exact Or.inr (.enter hmode hnew hwrite)

/-- **Invariants.**  What holds at the start and is kept by every successful step holds of all
walks of a compilation. -/
theorem Reached.induction {P : Walk → Prop} (h : Reached d w) (hstart : P (Walk.start d))
    (hstep : ∀ w w', Reached d w → Step d w w' → P w → P w') : P w := by
  induction h with
  | start => exact hstart
  | next hreached hnext ih =>
    rcases Step.of_next hnext with rfl | hs
    · exact ih
    · exact hstep _ _ hreached hs ih

end Walk

/-! ## Compilations -/

variable {d : Document} {c : Compilation}

/-- A compilation is the finished draft of a walk from the start. -/
theorem exists_reached_of_compile (h : compile d = .ok c) :
    ∃ t, Walk.Reached d ⟨[], [], t⟩ ∧ c = t.finish d := by
  unfold compile walk at h
  split at h
  · simp at h
  · split at h
    · simp at h
    · rename_i t hall
      have hend := (Walk.Reached.start (d := d)).of_outcome
      rw [Walk.outcome_start, hall] at hend
      rw [Except.ok.injEq] at h
      exact ⟨t, hend, h.symm⟩

/-- The compilation of a checked document fails by a step of the walk. -/
theorem exists_next_error_of_compile {fault : Fault} (hvalid : validate d = .ok ())
    (h : compile d = .error fault) : ∃ w, Walk.Reached d w ∧ w.next d = .error fault := by
  rw [compile, hvalid] at h
  unfold walk at h
  dsimp only at h
  split at h
  · rename_i fault' hall
    have hend := (Walk.Reached.start (d := d)).of_outcome
    rw [Walk.outcome_start, hall] at hend
    rw [Except.error.injEq] at h
    rwa [h] at hend
  · simp at h

/-- A walk that has come to its end gives the compilation of a checked document. -/
theorem compile_of_reached {t : Draft} (hvalid : validate d = .ok ())
    (h : Walk.Reached d ⟨[], [], t⟩) : compile d = .ok (t.finish d) := by
  have hall : Draft.enterAll d d.entrances {} = .ok t := by
    rw [← h.outcome, Walk.outcome_finished]
  simp [compile, walk, hvalid, hall]

/-- A step that fails stops the compilation of a checked document. -/
theorem compile_of_next_error {w : Walk} {fault : Fault} (hvalid : validate d = .ok ())
    (h : Walk.Reached d w) (hnext : w.next d = .error fault) : compile d = .error fault := by
  have hall : Draft.enterAll d d.entrances {} = .error fault := by
    rw [← h.outcome, Walk.outcome_eq, hnext]
  simp [compile, walk, hvalid, hall]

/-- A connection that cannot be followed stops the compilation of a checked document. -/
theorem compile_of_visit_error {entrances : List Layer} {rest : List (Layer × NodeId)}
    {p : Layer} {n : NodeId} {t : Draft} {fault : Fault} (hvalid : validate d = .ok ())
    (h : Walk.Reached d ⟨entrances, (p, n) :: rest, t⟩)
    (hvisit : Walk.visit d t p n = .error fault) : compile d = .error fault :=
  compile_of_next_error hvalid h (by simp [Walk.next, hvisit])

end NetDiagram.Flow
