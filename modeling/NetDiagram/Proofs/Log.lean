import Mathlib.Data.Finset.Card
import NetDiagram.Proofs.Ledger

/-!
# The ledger and its log

A ledger is used by two kinds of calls: a node is registered with its roles, and an id arrives at a
node.  What the ledger answers can be told without counters, from the list of the calls so far:
the roles of a node are those of its first registration, and what has arrived is what came after.

`dueAnswer` is that reading of a log.  This file shows that the ledger after any list of calls
gives the due answer to the next one, and that its counters and marks are what the log says.

## Main statements

* `Ledger.Agrees.apply`: one call keeps a ledger in agreement with its log.
* `Ledger.agrees_replay`: so the ledger after any list of calls agrees with it.
* `Ledger.wasSatisfied_iff`: a node was released exactly when all that its roles declare has
  arrived.
* `Ledger.Agrees.arrive_eq_dueAnswer`: the answer to the next arrival is the due one.
-/

namespace NetDiagram.Flow

/-- A call to a ledger. -/
inductive Call where
  | register (node : NodeId) (roles : List (List NodeId))
  | arrive (node id : NodeId)
deriving DecidableEq, Repr

namespace Call

/-- The roles that the call gives to the node, if it registers the node. -/
def roles? (node : NodeId) : Call → Option (List (List NodeId))
  | register n roles => if n = node then some roles else none
  | arrive _ _ => none

/-- The id that arrives at the node by the call. -/
def arrival? (node : NodeId) : Call → Option NodeId
  | register _ _ => none
  | arrive n id => if n = node then some id else none

end Call

/-! ## Replaying a log -/

namespace Ledger

/-- The ledger after a call. -/
def apply (l : Ledger) : Call → Ledger
  | .register node roles => l.register node roles
  | .arrive node id => (l.arrive node id).2

/-- The ledger after the calls of a log, from an empty one. -/
def replay (log : List Call) : Ledger :=
  log.foldl apply {}

/-- The answers to the arrivals of a log: where, from which id, and the answer. -/
def answers (l : Ledger) : List Call → List (NodeId × NodeId × Arrival)
  | [] => []
  | .register node roles :: rest => (l.register node roles).answers rest
  | .arrive node id :: rest => (node, id, (l.arrive node id).1) :: (l.arrive node id).2.answers rest

lemma replay_snoc (log : List Call) (c : Call) : replay (log ++ [c]) = (replay log).apply c := by
  simp [replay]

lemma answers_append (l : Ledger) (log log' : List Call) :
    l.answers (log ++ log') = l.answers log ++ (log.foldl apply l).answers log' := by
  induction log generalizing l with
  | nil => rfl
  | cons c rest ih =>
    cases c with
    | register node roles => simp [answers, apply, ih]
    | arrive node id => simp [answers, apply, ih]

end Ledger

/-! ## What a log says -/

/-- The roles of the first registration of the node. -/
def declaredRoles (log : List Call) (node : NodeId) : Option (List (List NodeId)) :=
  log.findSome? (Call.roles? node)

/-- The ids that arrived at the node since its first registration, in order. -/
def arrivedSince : List Call → NodeId → List NodeId
  | [], _ => []
  | c :: rest, node =>
    if (c.roles? node).isSome then rest.filterMap (Call.arrival? node) else arrivedSince rest node

/-- The arrivals at the node that were answered by `satisfied`. -/
def releases (log : List Call) (node : NodeId) : List (NodeId × NodeId × Arrival) :=
  (Ledger.answers {} log).filter fun (n, _, answer) => n = node ∧ answer = .satisfied

/-- Whether an arrival at the node was answered by `satisfied`. -/
def wasSatisfied (log : List Call) (node : NodeId) : Bool :=
  !(releases log node).isEmpty

/-- The answer that is due when the id arrives at the node after the calls of the log. -/
def dueAnswer (log : List Call) (node id : NodeId) : Arrival :=
  match declaredRoles log node with
  | none => .undeclared
  | some roles =>
    if id ∉ roles.flatten then .undeclared
    else if roles.flatten ⊆ arrivedSince (log ++ [.arrive node id]) node ∧
        wasSatisfied log node = false then .satisfied
    else .pending

section Snoc

variable {log : List Call} {node : NodeId}

lemma declaredRoles_snoc (log : List Call) (c : Call) (node : NodeId) :
    declaredRoles (log ++ [c]) node = (declaredRoles log node).or (c.roles? node) := by
  simp only [declaredRoles, List.findSome?_append, List.findSome?_cons, List.findSome?_nil]
  cases c.roles? node <;> rfl

/-- Once a node is registered, every arrival counts. -/
lemma arrivedSince_snoc_of_some {roles : List (List NodeId)}
    (h : declaredRoles log node = some roles) (c : Call) :
    arrivedSince (log ++ [c]) node = arrivedSince log node ++ (c.arrival? node).toList := by
  induction log with
  | nil => simp [declaredRoles] at h
  | cons first rest ih =>
    simp only [List.cons_append, arrivedSince]
    cases hfirst : first.roles? node with
    | some _ =>
      simp only [Option.isSome_some, if_true, List.filterMap_append, List.filterMap_cons,
        List.filterMap_nil]
      cases c.arrival? node <;> rfl
    | none =>
      simp only [Option.isSome_none, Bool.false_eq_true, if_false]
      exact ih (by simpa [declaredRoles, hfirst] using h)

/-- Before a node is registered no arrival counts, and the call that registers it is none. -/
lemma arrivedSince_snoc_of_none (h : declaredRoles log node = none) (c : Call) :
    arrivedSince (log ++ [c]) node = [] := by
  induction log with
  | nil => simp [arrivedSince]
  | cons first rest ih =>
    rw [declaredRoles, List.findSome?_eq_none_iff, List.forall_mem_cons] at h
    simp only [List.cons_append, arrivedSince, h.1, Option.isSome_none, Bool.false_eq_true,
      if_false]
    exact ih (by rw [declaredRoles, List.findSome?_eq_none_iff]; exact h.2)

lemma releases_snoc_register (n : NodeId) (roles : List (List NodeId)) :
    releases (log ++ [.register n roles]) node = releases log node := by
  simp [releases, Ledger.answers_append, Ledger.answers]

lemma releases_snoc_of_satisfied {id : NodeId}
    (h : ((Ledger.replay log).arrive node id).1 = .satisfied) :
    releases (log ++ [.arrive node id]) node = releases log node ++ [(node, id, .satisfied)] := by
  rw [Ledger.replay] at h
  simp [releases, Ledger.answers_append, Ledger.answers, h]

lemma releases_snoc_of_not_satisfied {n id : NodeId}
    (h : ¬ (n = node ∧ ((Ledger.replay log).arrive n id).1 = .satisfied)) :
    releases (log ++ [.arrive n id]) node = releases log node := by
  rw [Ledger.replay] at h
  simp only [releases, Ledger.answers_append, Ledger.answers, List.filter_append]
  rw [List.filter_cons_of_neg (by simpa using h), List.filter_nil, List.append_nil]

end Snoc

/-! ## One call -/

variable {roles : List (List NodeId)} {A B : Set NodeId}

lemma covered_congr (hAB : ∀ id ∈ roles.flatten, id ∈ A ↔ id ∈ B) :
    Covered roles A ↔ Covered roles B :=
  and_congr_right fun _ => forall₂_congr hAB

namespace Join

variable {j : Join}

/-- Only the declared ids matter. -/
lemma RolesTrack.congr (h : j.RolesTrack roles A) (hAB : ∀ id ∈ roles.flatten, id ∈ A ↔ id ∈ B) :
    j.RolesTrack roles B := by
  unfold RolesTrack at h ⊢
  generalize j.roles = rs at h ⊢
  induction h with
  | nil => exact .nil
  | @cons r ids rs roles hr _ ih =>
    refine .cons { hr with mem_arrived := fun id => ?_ } (ih fun id hid => ?_)
    · rw [hr.mem_arrived]
      exact and_congr_right fun hid => hAB id (List.mem_append_left _ hid)
    · exact hAB id (List.mem_append_right _ hid)

lemma Tracks.congr (h : j.Tracks roles A) (hAB : ∀ id ∈ roles.flatten, id ∈ A ↔ id ∈ B) :
    j.Tracks roles B where
  rolesTrack := h.rolesTrack.congr hAB
  released_iff := h.released_iff.trans (covered_congr hAB)

end Join

namespace Ledger

/-- The ids that arrived at the node since its first registration, as a set. -/
def arrivedSet (log : List Call) (node : NodeId) : Set NodeId :=
  {id | id ∈ arrivedSince log node}

lemma arrivedSet_snoc_arrive {log : List Call} {node : NodeId} {roles : List (List NodeId)}
    (h : declaredRoles log node = some roles) (id : NodeId) :
    arrivedSet (log ++ [.arrive node id]) node = insert id (arrivedSet log node) := by
  ext x
  simp [arrivedSet, arrivedSince_snoc_of_some h, Call.arrival?, or_comm]

lemma mem_insert_iff_of_notMem {roles : List (List NodeId)} {A : Set NodeId} {id : NodeId}
    (hid : id ∉ roles.flatten) : ∀ x ∈ roles.flatten, x ∈ A ↔ x ∈ insert id A := by
  intro x hx
  rw [Set.mem_insert_iff, or_iff_right]
  rintro rfl
  exact hid hx

/-- The ledger is what the log says: a node has a join exactly if it was registered, with the roles
of its first registration and the arrivals since then. -/
structure Agrees (l : Ledger) (log : List Call) : Prop where
  nodup : (l.joins.map Prod.fst).Nodup
  get?_none : ∀ node, declaredRoles log node = none → l.get? node = none
  get?_some : ∀ node roles, declaredRoles log node = some roles →
    ∃ j, l.get? node = some j ∧ j.Tracks roles (arrivedSet log node)

variable {l : Ledger} {log : List Call}

lemma agrees_nil : Agrees {} [] where
  nodup := List.nodup_nil
  get?_none _ _ := rfl
  get?_some node roles h := by simp [declaredRoles] at h

/-- A call that does not concern the node changes nothing for it. -/
lemma Agrees.get?_of_unconcerned (h : l.Agrees log) {c : Call} {m : NodeId}
    (hroles : c.roles? m = none) (harrival : c.arrival? m = none)
    (hget : (l.apply c).get? m = l.get? m) :
    (declaredRoles (log ++ [c]) m = none → (l.apply c).get? m = none) ∧
      ∀ roles, declaredRoles (log ++ [c]) m = some roles →
        ∃ j, (l.apply c).get? m = some j ∧ j.Tracks roles (arrivedSet (log ++ [c]) m) := by
  rw [hget, declaredRoles_snoc, hroles, Option.or_none]
  refine ⟨h.get?_none m, fun roles hsome => ?_⟩
  obtain ⟨j, hj, htracks⟩ := h.get?_some m roles hsome
  refine ⟨j, hj, ?_⟩
  rwa [arrivedSet, arrivedSince_snoc_of_some hsome, harrival, Option.toList_none,
    List.append_nil]

lemma Agrees.register (h : l.Agrees log) (node : NodeId) (roles : List (List NodeId)) :
    (l.apply (.register node roles)).Agrees (log ++ [.register node roles]) := by
  have hother : ∀ m, m ≠ node → (l.apply (.register node roles)).get? m = l.get? m :=
    fun m hm => get?_register_of_ne hm
  have hself : (l.apply (.register node roles)).get? node =
      some ((l.get? node).getD (.ofRoles roles)) := get?_register_self l node roles
  have hunconcerned : ∀ m, m ≠ node → _ := fun m hm =>
    h.get?_of_unconcerned (c := .register node roles) (m := m)
      (by simp [Call.roles?, Ne.symm hm]) rfl (hother m hm)
  refine ⟨?_, fun m hnone => ?_, fun m roles' hsome => ?_⟩
  · simp only [apply, Ledger.register]
    split
    · exact h.nodup
    · rename_i hnone
      refine List.nodup_cons.2 ⟨?_, h.nodup⟩
      rw [List.mem_map]
      rintro ⟨entry, hentry, rfl⟩
      simpa using List.lookup_eq_none_iff.1 hnone entry hentry
  · by_cases hm : m = node
    · simp [declaredRoles_snoc, Call.roles?, hm] at hnone
    · exact (hunconcerned m hm).1 hnone
  · by_cases hm : m = node
    · subst hm
      rw [hself]
      refine ⟨_, rfl, ?_⟩
      cases hfirst : declaredRoles log m with
      | some first =>
        -- A later registration is not looked at.
        obtain ⟨j, hj, htracks⟩ := h.get?_some m first hfirst
        obtain rfl : first = roles' := by
          simpa [declaredRoles_snoc, hfirst] using hsome
        rw [hj, Option.getD_some, arrivedSet, arrivedSince_snoc_of_some hfirst]
        simpa [Call.arrival?, arrivedSet] using htracks
      | none =>
        obtain rfl : roles = roles' := by
          simpa [declaredRoles_snoc, hfirst, Call.roles?] using hsome
        rw [h.get?_none m hfirst, Option.getD_none, arrivedSet,
          arrivedSince_snoc_of_none hfirst]
        simpa using Join.tracks_ofRoles roles
    · exact (hunconcerned m hm).2 roles' hsome

lemma map_fst_replace (joins : List (NodeId × Join)) (node : NodeId) (next : Join) :
    (joins.map fun (k, j) => if k = node then (k, next) else (k, j)).map Prod.fst =
      joins.map Prod.fst := by
  rw [List.map_map]
  refine List.map_congr_left fun entry _ => ?_
  by_cases hk : entry.1 = node <;> simp [hk]

lemma nodup_arrive (h : (l.joins.map Prod.fst).Nodup) (node id : NodeId) :
    ((l.arrive node id).2.joins.map Prod.fst).Nodup := by
  unfold Ledger.arrive
  split
  · exact h
  · rwa [map_fst_replace]

lemma Agrees.arrive (h : l.Agrees log) (node id : NodeId) :
    (l.apply (.arrive node id)).Agrees (log ++ [.arrive node id]) := by
  have hroles : ∀ m, declaredRoles (log ++ [.arrive node id]) m = declaredRoles log m := by
    intro m
    rw [declaredRoles_snoc, Call.roles?, Option.or_none]
  refine ⟨nodup_arrive h.nodup node id, fun m hnone => ?_, fun m roles hsome => ?_⟩
  · rw [hroles] at hnone
    have hget := h.get?_none m hnone
    by_cases hm : m = node
    · subst hm
      simp only [apply, Ledger.arrive, hget]
    · rw [apply, get?_arrive_of_ne hm, hget]
  · by_cases hm : m = node
    · subst hm
      rw [hroles] at hsome
      obtain ⟨j, hj, htracks⟩ := h.get?_some m roles hsome
      refine ⟨_, (arrive_of_get? hj id).2, ?_⟩
      rw [arrivedSet_snoc_arrive hsome]
      -- An id that is not declared changes neither the join nor what counts as arrived.
      by_cases hid : id ∈ roles.flatten
      · exact (htracks.arrive hid).1
      · rw [htracks.arrive_of_notMem hid]
        exact htracks.congr (mem_insert_iff_of_notMem hid)
    · exact (h.get?_of_unconcerned (c := .arrive node id) (m := m) rfl
        (by simp [Call.arrival?, Ne.symm hm]) (get?_arrive_of_ne hm id)).2 roles hsome

/-- **One call** keeps a ledger in agreement with its log. -/
theorem Agrees.apply (h : l.Agrees log) (c : Call) : (l.apply c).Agrees (log ++ [c]) := by
  cases c with
  | register node roles => exact h.register node roles
  | arrive node id => exact h.arrive node id

/-- **All calls.**  The ledger after any list of calls agrees with it. -/
theorem agrees_replay (log : List Call) : (replay log).Agrees log := by
  induction log using List.reverseRecOn with
  | nil => exact agrees_nil
  | append_singleton log c ih =>
    rw [replay_snoc]
    exact ih.apply c

/-! ## Answers -/

lemma Agrees.arrive_eq_undeclared_iff (h : l.Agrees log) (node id : NodeId) :
    (l.arrive node id).1 = .undeclared ↔
      ∀ roles, declaredRoles log node = some roles → id ∉ roles.flatten := by
  cases hfirst : declaredRoles log node with
  | none => simp [Ledger.arrive, h.get?_none node hfirst]
  | some roles =>
    obtain ⟨j, hj, htracks⟩ := h.get?_some node roles hfirst
    rw [(arrive_of_get? hj id).1]
    simp only [Option.some.injEq, forall_eq']
    by_cases hid : id ∈ roles.flatten
    · exact iff_of_false (htracks.arrive hid).2.1 (not_not_intro hid)
    · rw [htracks.arrive_of_notMem hid]
      exact iff_of_true rfl hid

/-- All that the roles of the node declare has arrived. -/
def Complete (log : List Call) (node : NodeId) : Prop :=
  ∃ roles, declaredRoles log node = some roles ∧ Covered roles (arrivedSet log node)

lemma complete_iff {roles : List (List NodeId)} {node : NodeId}
    (h : declaredRoles log node = some roles) :
    Complete log node ↔ Covered roles (arrivedSet log node) := by
  simp [Complete, h]

lemma not_complete_of_none {node : NodeId} (h : declaredRoles log node = none) :
    ¬ Complete log node := by
  simp [Complete, h]

lemma Agrees.arrive_eq_satisfied_iff (h : l.Agrees log) (node id : NodeId) :
    (l.arrive node id).1 = .satisfied ↔
      ¬ Complete log node ∧ Complete (log ++ [.arrive node id]) node := by
  cases hfirst : declaredRoles log node with
  | none =>
    have hnext : declaredRoles (log ++ [.arrive node id]) node = none := by
      rw [declaredRoles_snoc, hfirst, Option.none_or, Call.roles?]
    refine iff_of_false ?_ fun hc => not_complete_of_none hnext hc.2
    simp [Ledger.arrive, h.get?_none node hfirst]
  | some roles =>
    have hnext : declaredRoles (log ++ [.arrive node id]) node = some roles := by
      rw [declaredRoles_snoc, hfirst, Option.some_or]
    obtain ⟨j, hj, htracks⟩ := h.get?_some node roles hfirst
    rw [(arrive_of_get? hj id).1, complete_iff hfirst, complete_iff hnext,
      arrivedSet_snoc_arrive hfirst]
    by_cases hid : id ∈ roles.flatten
    · exact (htracks.arrive hid).2.2
    · rw [htracks.arrive_of_notMem hid, ← covered_congr (mem_insert_iff_of_notMem hid)]
      exact iff_of_false (by simp) fun hcov => hcov.1 hcov.2

lemma replace_eq_self {joins : List (NodeId × Join)} (hnodup : (joins.map Prod.fst).Nodup)
    {node : NodeId} {j : Join} (hj : joins.lookup node = some j) :
    (joins.map fun (k, i) => if k = node then (k, j) else (k, i)) = joins := by
  induction joins with
  | nil => rfl
  | cons entry rest ih =>
    obtain ⟨k, i⟩ := entry
    rw [List.map_cons, List.nodup_cons] at hnodup
    rw [List.map_cons]
    dsimp only
    by_cases hk : node = k
    · subst hk
      obtain rfl : i = j := by simpa using hj
      -- The key does not occur again, so the rest of the list is left alone.
      have hrest : (rest.map fun (k, i') => if k = node then (k, i) else (k, i')) = rest := by
        refine (List.map_congr_left fun entry hentry => ?_).trans (List.map_id rest)
        have hne : entry.1 ≠ node := by
          intro heq
          exact hnodup.1 (List.mem_map.2 ⟨entry, hentry, heq⟩)
        simp [hne]
      rw [if_pos rfl, hrest]
    · have hb : (node == k) = false := beq_eq_false_iff_ne.2 hk
      rw [List.lookup_cons, hb] at hj
      rw [if_neg (Ne.symm hk), ih hnodup.2 hj]

lemma Agrees.arrive_of_undeclared (h : l.Agrees log) {node id : NodeId}
    (hundeclared : (l.arrive node id).1 = .undeclared) : (l.arrive node id).2 = l := by
  have hnot := (h.arrive_eq_undeclared_iff node id).1 hundeclared
  cases hfirst : declaredRoles log node with
  | none => simp [Ledger.arrive, h.get?_none node hfirst]
  | some roles =>
    obtain ⟨j, hj, htracks⟩ := h.get?_some node roles hfirst
    have hjoin := htracks.arrive_of_notMem (hnot roles hfirst)
    simp only [Ledger.arrive, hj, hjoin]
    rw [replace_eq_self h.nodup hj]

end Ledger

/-! ## Releases -/

namespace Ledger

variable {l : Ledger} {log : List Call} {node : NodeId}

lemma Complete.snoc (h : Complete log node) (c : Call) : Complete (log ++ [c]) node := by
  obtain ⟨roles, hfirst, hcov⟩ := h
  refine ⟨roles, by rw [declaredRoles_snoc, hfirst, Option.some_or], hcov.mono fun x hx => ?_⟩
  have hlist : x ∈ arrivedSince (log ++ [c]) node := by
    rw [arrivedSince_snoc_of_some hfirst]
    exact List.mem_append_left _ hx
  exact hlist

lemma complete_snoc_iff_of_not_arrival {c : Call} (hc : c.arrival? node = none) :
    Complete (log ++ [c]) node ↔ Complete log node := by
  refine ⟨fun h => ?_, fun h => h.snoc c⟩
  obtain ⟨roles, hroles, hcov⟩ := h
  cases hfirst : declaredRoles log node with
  | some first =>
    obtain rfl : first = roles := by simpa [declaredRoles_snoc, hfirst] using hroles
    refine ⟨first, hfirst, ?_⟩
    rwa [arrivedSet, arrivedSince_snoc_of_some hfirst, hc, Option.toList_none,
      List.append_nil] at hcov
  | none =>
    rw [arrivedSet, arrivedSince_snoc_of_none hfirst] at hcov
    simp [not_covered_empty] at hcov

/-- The arrival that completes a node is the one of the last outstanding id. -/
lemma complete_snoc_arrive_iff {id : NodeId} :
    ¬ Complete log node ∧ Complete (log ++ [.arrive node id]) node ↔
      ∃ roles, declaredRoles log node = some roles ∧ id ∈ roles.flatten ∧
        ¬ roles.flatten ⊆ arrivedSince log node ∧
        roles.flatten ⊆ arrivedSince (log ++ [.arrive node id]) node := by
  constructor
  · rintro ⟨hbefore, roles, hroles, hne, hall⟩
    rw [declaredRoles_snoc, Call.roles?, Option.or_none] at hroles
    have hsub : ¬ roles.flatten ⊆ arrivedSince log node :=
      fun hsub => hbefore ⟨roles, hroles, hne, hsub⟩
    refine ⟨roles, hroles, ?_, hsub, hall⟩
    -- If the id were not declared, all that is declared would have arrived before.
    by_contra hid
    refine hsub fun x hx => ?_
    have hx' := hall x hx
    rw [arrivedSet_snoc_arrive hroles] at hx'
    exact (mem_insert_iff_of_notMem hid x hx).2 hx'
  · rintro ⟨roles, hroles, hid, hsub, hall⟩
    refine ⟨fun hbefore => hsub ((complete_iff hroles).1 hbefore).2, roles, ?_, ?_, hall⟩
    · rw [declaredRoles_snoc, hroles, Option.some_or]
    · exact List.ne_nil_of_mem hid

/-- An arrival at the node was answered by `satisfied` exactly if all that its roles declare has
arrived, and never twice. -/
lemma releases_spec (log : List Call) (node : NodeId) :
    (releases log node).length ≤ 1 ∧ (releases log node ≠ [] ↔ Complete log node) := by
  induction log using List.reverseRecOn with
  | nil => simp [releases, answers, Complete, declaredRoles]
  | append_singleton log c ih =>
    cases c with
    | register n roles =>
      rw [releases_snoc_register, complete_snoc_iff_of_not_arrival rfl]
      exact ih
    | arrive n id =>
      by_cases hn : n = node
      · subst hn
        have hsat := (agrees_replay log).arrive_eq_satisfied_iff n id
        by_cases hanswer : ((replay log).arrive n id).1 = .satisfied
        -- A node that was released is complete, and the answer `satisfied` is given before that
        -- only.
        · have hnil : releases log n = [] := by
            by_contra hne
            exact (hsat.1 hanswer).1 (ih.2.1 hne)
          rw [releases_snoc_of_satisfied hanswer, hnil]
          exact ⟨Nat.le_refl 1, iff_of_true (by simp) (hsat.1 hanswer).2⟩
        · rw [releases_snoc_of_not_satisfied fun h => hanswer h.2]
          refine ⟨ih.1, ih.2.trans ⟨fun h => h.snoc _, fun hnow => ?_⟩⟩
          by_contra hbefore
          exact hanswer (hsat.2 ⟨hbefore, hnow⟩)
      · rw [releases_snoc_of_not_satisfied fun h => hn h.1,
          complete_snoc_iff_of_not_arrival (by simp [Call.arrival?, hn])]
        exact ih

lemma wasSatisfied_iff (log : List Call) (node : NodeId) :
    wasSatisfied log node = true ↔ Complete log node := by
  rw [← (releases_spec log node).2, wasSatisfied, Bool.not_eq_true', List.isEmpty_eq_false_iff]

/-! ## The ledger against its log -/

/-- The ledger gives the answer that is due. -/
lemma Agrees.arrive_eq_dueAnswer (h : l.Agrees log) (node id : NodeId) :
    (l.arrive node id).1 = dueAnswer log node id := by
  have hundeclared := h.arrive_eq_undeclared_iff node id
  have hsatisfied := h.arrive_eq_satisfied_iff node id
  unfold dueAnswer
  cases hfirst : declaredRoles log node with
  | none => exact hundeclared.2 fun roles hroles => absurd (hfirst.symm.trans hroles) (by simp)
  | some roles =>
    have hnext : declaredRoles (log ++ [.arrive node id]) node = some roles := by
      rw [declaredRoles_snoc, hfirst, Option.some_or]
    rw [complete_iff hnext, ← wasSatisfied_iff, Bool.not_eq_true] at hsatisfied
    dsimp only
    split
    · rename_i hid
      refine hundeclared.2 fun roles' hroles' => ?_
      obtain rfl : roles = roles' := Option.some.inj (hfirst.symm.trans hroles')
      exact hid
    · rename_i hid
      have hmem : id ∈ roles.flatten := not_not.1 hid
      split
      · rename_i hdue
        exact hsatisfied.2 ⟨hdue.2, List.ne_nil_of_mem hmem, hdue.1⟩
      · rename_i hnot
        have hne : (l.arrive node id).1 ≠ .satisfied := fun hs =>
          hnot ⟨(hsatisfied.1 hs).2.2, (hsatisfied.1 hs).1⟩
        have hdecl : (l.arrive node id).1 ≠ .undeclared := fun hu =>
          hundeclared.1 hu roles hfirst hmem
        cases hanswer : (l.arrive node id).1 with
        | pending => rfl
        | satisfied => exact absurd hanswer hne
        | undeclared => exact absurd hanswer hdecl

lemma Agrees.isPending_iff (h : l.Agrees log) (node : NodeId) :
    l.isPending node = true ↔ (declaredRoles log node).isSome ∧ wasSatisfied log node = false := by
  cases hfirst : declaredRoles log node with
  | none => simp [isPending, h.get?_none node hfirst]
  | some roles =>
    obtain ⟨j, hj, htracks⟩ := h.get?_some node roles hfirst
    have hmark : j.released = wasSatisfied log node := by
      rw [Bool.eq_iff_iff, htracks.released_iff, wasSatisfied_iff, complete_iff hfirst]
    simp [isPending, hj, hmark]

end Ledger

/-- The number of ids that a role declares and that have not arrived; a repeated id counts once. -/
def outstandingIds (ids arrived : List NodeId) : Nat :=
  (ids.toFinset \ arrived.toFinset).card

/-- The counter of a role is the number of its declared ids that have not arrived. -/
lemma Role.Tracks.outstanding_eq {r : Role} {ids arrived : List NodeId}
    (h : r.Tracks ids {id | id ∈ arrived}) : r.outstanding = outstandingIds ids arrived := by
  have hdeclared : r.declared.toFinset = ids.toFinset := by
    ext id
    simp [h.mem_declared]
  have harrived : r.arrived.toFinset = ids.toFinset ∩ arrived.toFinset := by
    ext id
    simp [h.mem_arrived]
  have hcount := h.outstanding_add
  rw [← List.toFinset_card_of_nodup h.nodup_declared, hdeclared,
    ← List.toFinset_card_of_nodup h.nodup_arrived, harrived] at hcount
  have hsplit := Finset.card_sdiff_add_card_inter ids.toFinset arrived.toFinset
  unfold outstandingIds
  omega

lemma Join.RolesTrack.map_outstanding {j : Join} {roles : List (List NodeId)}
    {arrived : List NodeId} (h : j.RolesTrack roles {id | id ∈ arrived}) :
    j.roles.map (·.outstanding) = roles.map fun ids => outstandingIds ids arrived := by
  unfold RolesTrack at h
  generalize j.roles = rs at h ⊢
  induction h with
  | nil => rfl
  | cons hr _ ih => rw [List.map_cons, List.map_cons, hr.outstanding_eq, ih]

lemma Ledger.Agrees.map_outstanding {l : Ledger} {log : List Call} (h : l.Agrees log)
    (node : NodeId) :
    (l.get? node).map (fun j => j.roles.map (·.outstanding)) =
      (declaredRoles log node).map
        fun roles => roles.map fun ids => outstandingIds ids (arrivedSince log node) := by
  cases hfirst : declaredRoles log node with
  | none => simp [h.get?_none node hfirst]
  | some roles =>
    obtain ⟨j, hj, htracks⟩ := h.get?_some node roles hfirst
    rw [hj, Option.map_some, Option.map_some, htracks.rolesTrack.map_outstanding]

/-- **The ledger follows its log.**  After any calls, an arrival gets the answer that is due, and
one that no role declares leaves the ledger as it is.  `satisfied` is answered at most once for a
node, at the arrival that completes what its roles declare; a node waits until then; and the counter
of a role is the number of its ids that have not arrived. -/
theorem ledger_refines_log (log : List Call) (node : NodeId) :
    (∀ id, ((Ledger.replay log).arrive node id).1 = dueAnswer log node id ∧
      (dueAnswer log node id = .undeclared →
        ((Ledger.replay log).arrive node id).2 = Ledger.replay log) ∧
      (dueAnswer log node id = .satisfied ↔
        ∃ roles, declaredRoles log node = some roles ∧ id ∈ roles.flatten ∧
          ¬ roles.flatten ⊆ arrivedSince log node ∧
          roles.flatten ⊆ arrivedSince (log ++ [.arrive node id]) node)) ∧
    (releases log node).length ≤ 1 ∧
    ((Ledger.replay log).isPending node = true ↔
      (declaredRoles log node).isSome ∧ wasSatisfied log node = false) ∧
    ((Ledger.replay log).get? node).map (fun j => j.roles.map (·.outstanding)) =
      (declaredRoles log node).map
        fun roles => roles.map fun ids => outstandingIds ids (arrivedSince log node) := by
  have hagrees := Ledger.agrees_replay log
  refine ⟨fun id => ⟨hagrees.arrive_eq_dueAnswer node id, fun hdue => ?_, ?_⟩,
    (Ledger.releases_spec log node).1, hagrees.isPending_iff node, hagrees.map_outstanding node⟩
  · exact hagrees.arrive_of_undeclared ((hagrees.arrive_eq_dueAnswer node id).trans hdue)
  · rw [← hagrees.arrive_eq_dueAnswer, hagrees.arrive_eq_satisfied_iff]
    exact Ledger.complete_snoc_arrive_iff

/-- A node with two roles that share an id.  One id is declared twice, one arrives twice, one comes
from outside, and the node is registered again with other roles. -/
def sharedLog : List Call :=
  [.register (.ofText "m") [[.ofText "a", .ofText "b", .ofText "b"], [.ofText "b", .ofText "c"]],
    .arrive (.ofText "m") (.ofText "b"), .arrive (.ofText "m") (.ofText "z"),
    .arrive (.ofText "m") (.ofText "b"), .register (.ofText "m") [[.ofText "z"]],
    .arrive (.ofText "m") (.ofText "a")]

/-- After `sharedLog` one id is outstanding, in the second role.  Its arrival is answered by
`satisfied`, and the id of the second registration is still from outside. -/
theorem ledger_refines_sharedLog :
    ((Ledger.replay sharedLog).arrive (.ofText "m") (.ofText "c")).1 = .satisfied ∧
      ((Ledger.replay sharedLog).arrive (.ofText "m") (.ofText "z")).2 =
        Ledger.replay sharedLog ∧
      ((Ledger.replay sharedLog).get? (.ofText "m")).map (fun j => j.roles.map (·.outstanding)) =
        some [0, 1] := by
  obtain ⟨hanswers, -, -, hcounters⟩ := ledger_refines_log sharedLog (.ofText "m")
  refine ⟨(hanswers (.ofText "c")).1.trans (by decide +kernel),
    (hanswers (.ofText "z")).2.1 (by decide +kernel), hcounters.trans (by decide +kernel)⟩

end NetDiagram.Flow
