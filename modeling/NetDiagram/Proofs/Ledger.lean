import Mathlib.Data.List.Perm.Subperm
import Mathlib.Data.Set.Insert
import NetDiagram.Flow.Ledger

/-!
# What the ledger of joins knows

A join keeps, for each of its roles, the declared ids, those that have arrived, and a count of
the outstanding ones.  This file says what that data means: `Join.Tracks roles A` holds of a join
that was opened with the given roles and at which exactly the ids of the set `A` have arrived.

## Main statements

* `Role.Tracks.outstanding_eq_zero_iff`: the count is zero exactly when every declared id has
  arrived.
* `Join.Tracks.arrive`: an arrival adds its id to the set, and is answered by `satisfied` exactly
  when it completes the join.  A join is complete, `Covered`, when something is declared and all
  of it has arrived; a join without declared ids is never complete.
* `Ledger.Receives.of_arrive`: the same for a node of a ledger, with the joins of all other nodes
  unchanged.
-/

namespace NetDiagram.Flow

/-! ## Roles -/

/-- The role declares the given ids, and of these exactly the ones in `A` have arrived. -/
structure Role.Tracks (r : Role) (ids : List NodeId) (A : Set NodeId) : Prop where
  mem_declared : ∀ id, id ∈ r.declared ↔ id ∈ ids
  nodup_declared : r.declared.Nodup
  mem_arrived : ∀ id, id ∈ r.arrived ↔ id ∈ ids ∧ id ∈ A
  nodup_arrived : r.arrived.Nodup
  outstanding_add : r.outstanding + r.arrived.length = r.declared.length

/-- Dropping repetitions leaves no repetition.  The recursion goes through a filtered tail, so
the induction is on the length. -/
lemma nodup_eraseDups {α : Type} [DecidableEq α] (xs : List α) : xs.eraseDups.Nodup := by
  induction hn : xs.length using Nat.strong_induction_on generalizing xs with
  | h n ih =>
    cases xs with
    | nil => simp
    | cons x rest =>
      have hlt : (rest.filter fun y => !y == x).length < n := by
        have := List.length_filter_le (fun y => !y == x) rest
        simp only [List.length_cons] at hn
        omega
      rw [List.eraseDups_cons, List.nodup_cons]
      refine ⟨?_, ih _ hlt _ rfl⟩
      simp [List.mem_eraseDups]

namespace Role

lemma tracks_ofIds (ids : List NodeId) : (ofIds ids).Tracks ids ∅ where
  mem_declared id := by simp [ofIds, List.mem_eraseDups]
  nodup_declared := nodup_eraseDups ids
  mem_arrived id := by simp [ofIds]
  nodup_arrived := by simp [ofIds]
  outstanding_add := by simp [ofIds]

variable {r : Role} {ids : List NodeId} {A : Set NodeId}

lemma Tracks.arrived_subset (h : r.Tracks ids A) : r.arrived ⊆ r.declared := by
  intro id hid
  exact (h.mem_declared id).2 ((h.mem_arrived id).1 hid).1

/-- Nothing is outstanding exactly when every declared id has arrived. -/
theorem Tracks.outstanding_eq_zero_iff (h : r.Tracks ids A) :
    r.outstanding = 0 ↔ ∀ id ∈ ids, id ∈ A := by
  have hsub := h.nodup_arrived.subperm h.arrived_subset
  have hcount := h.outstanding_add
  constructor
  · intro hzero id hid
    have hperm := hsub.perm_of_length_le (by omega)
    have hmem : id ∈ r.arrived := hperm.mem_iff.2 ((h.mem_declared id).2 hid)
    exact ((h.mem_arrived id).1 hmem).2
  · intro hall
    have hback : r.declared ⊆ r.arrived := by
      intro id hid
      have hids := (h.mem_declared id).1 hid
      exact (h.mem_arrived id).2 ⟨hids, hall id hids⟩
    have hle := (h.nodup_declared.subperm hback).length_le
    omega

lemma Tracks.arrive (h : r.Tracks ids A) (id : NodeId) :
    (r.arrive id).Tracks ids (insert id A) := by
  unfold Role.arrive
  split
  · rename_i hnew
    obtain ⟨hdecl, hnot⟩ := hnew
    have hids := (h.mem_declared id).1 hdecl
    -- The id is declared and new, so fewer have arrived than are declared, and the counter is
    -- positive.
    have hlt : r.arrived.length < r.declared.length := by
      have hcons : (id :: r.arrived) ⊆ r.declared := List.cons_subset.2 ⟨hdecl, h.arrived_subset⟩
      exact ((List.nodup_cons.2 ⟨hnot, h.nodup_arrived⟩).subperm hcons).length_le
    refine ⟨h.mem_declared, h.nodup_declared, ?_, List.nodup_cons.2 ⟨hnot, h.nodup_arrived⟩, ?_⟩
    · intro x
      rw [List.mem_cons, h.mem_arrived, Set.mem_insert_iff]
      constructor
      · rintro (rfl | ⟨hx, hA⟩)
        · exact ⟨hids, Or.inl rfl⟩
        · exact ⟨hx, Or.inr hA⟩
      · rintro ⟨hx, rfl | hA⟩
        · exact Or.inl rfl
        · exact Or.inr ⟨hx, hA⟩
    · have := h.outstanding_add
      simp only [List.length_cons]
      omega
  · rename_i hold
    refine ⟨h.mem_declared, h.nodup_declared, ?_, h.nodup_arrived, h.outstanding_add⟩
    intro x
    rw [h.mem_arrived, Set.mem_insert_iff]
    constructor
    · rintro ⟨hx, hA⟩
      exact ⟨hx, Or.inr hA⟩
    · rintro ⟨hx, rfl | hA⟩
      -- The id is not new, though it is declared: it has arrived before.
      · have harr : x ∈ r.arrived := by
          by_contra hnot
          exact hold ⟨(h.mem_declared x).2 hx, hnot⟩
        exact (h.mem_arrived x).1 harr
      · exact ⟨hx, hA⟩

end Role

/-! ## Joins -/

/-- Something is declared, and all that is declared is in `A`. -/
def Covered (roles : List (List NodeId)) (A : Set NodeId) : Prop :=
  roles.flatten ≠ [] ∧ ∀ id ∈ roles.flatten, id ∈ A

lemma Covered.mono {roles : List (List NodeId)} {A B : Set NodeId} (h : Covered roles A)
    (hAB : A ⊆ B) : Covered roles B :=
  ⟨h.1, fun id hid => hAB (h.2 id hid)⟩

lemma not_covered_empty (roles : List (List NodeId)) : ¬ Covered roles ∅ := by
  rintro ⟨hne, hall⟩
  obtain ⟨id, hid⟩ := List.exists_mem_of_ne_nil _ hne
  exact Set.notMem_empty id (hall id hid)

namespace Join

/-- The roles of the join are the given ones, and exactly the ids in `A` have arrived. -/
def RolesTrack (j : Join) (roles : List (List NodeId)) (A : Set NodeId) : Prop :=
  List.Forall₂ (fun r ids => Role.Tracks r ids A) j.roles roles

/-- The join has the given roles, exactly the ids in `A` have arrived, and it was released if
they cover the roles. -/
structure Tracks (j : Join) (roles : List (List NodeId)) (A : Set NodeId) : Prop where
  rolesTrack : j.RolesTrack roles A
  released_iff : j.released = true ↔ Covered roles A

lemma tracks_ofRoles (roles : List (List NodeId)) : (ofRoles roles).Tracks roles ∅ where
  rolesTrack := by
    rw [RolesTrack, ofRoles, List.forall₂_map_left_iff]
    exact List.forall₂_same.2 fun ids _ => Role.tracks_ofIds ids
  released_iff := by simp [ofRoles, not_covered_empty]

variable {j : Join} {roles : List (List NodeId)} {A : Set NodeId}

lemma RolesTrack.declares_iff (h : j.RolesTrack roles A) (id : NodeId) :
    j.declares id = true ↔ id ∈ roles.flatten := by
  unfold declares
  unfold RolesTrack at h
  generalize j.roles = rs at h ⊢
  induction h with
  | nil => simp
  | cons hr _ ih =>
    simp only [List.any_cons, Bool.or_eq_true, List.contains_iff_mem, hr.mem_declared, ih,
      List.flatten_cons, List.mem_append]

/-- A join is complete when all that its roles declare has arrived. -/
lemma RolesTrack.isComplete_iff (h : j.RolesTrack roles A) :
    j.isComplete = true ↔ ∀ id ∈ roles.flatten, id ∈ A := by
  unfold isComplete
  unfold RolesTrack at h
  generalize j.roles = rs at h ⊢
  induction h with
  | nil => simp
  | cons hr _ ih =>
    simp only [List.all_cons, Bool.and_eq_true, beq_iff_eq, hr.outstanding_eq_zero_iff, ih,
      List.flatten_cons, List.mem_append, or_imp, forall_and]

lemma RolesTrack.exists_mem_arrived_iff (h : j.RolesTrack roles A) (id : NodeId) :
    (∃ r ∈ j.roles, id ∈ r.arrived) ↔ id ∈ roles.flatten ∧ id ∈ A := by
  unfold RolesTrack at h
  generalize j.roles = rs at h ⊢
  induction h with
  | nil => simp
  | cons hr _ ih =>
    simp only [List.exists_mem_cons_iff, hr.mem_arrived, ih, List.flatten_cons, List.mem_append,
      or_and_right]

lemma RolesTrack.map_arrive (h : j.RolesTrack roles A) (id : NodeId) (released : Bool) :
    RolesTrack ⟨j.roles.map (·.arrive id), released⟩ roles (insert id A) := by
  rw [RolesTrack, List.forall₂_map_left_iff]
  exact h.imp fun _ _ hr => hr.arrive id

/-- An id that no role declares leaves the join as it is. -/
lemma Tracks.arrive_of_notMem (h : j.Tracks roles A) {id : NodeId} (hid : id ∉ roles.flatten) :
    j.arrive id = (.undeclared, j) := by
  have hdecl : ¬ j.declares id = true := fun hd => hid ((h.rolesTrack.declares_iff id).1 hd)
  unfold Join.arrive
  rw [if_neg hdecl]

/-- A declared id is crossed off.  The answer is `satisfied` exactly when the join was not
covered before and is covered now. -/
theorem Tracks.arrive (h : j.Tracks roles A) {id : NodeId} (hid : id ∈ roles.flatten) :
    (j.arrive id).2.Tracks roles (insert id A) ∧ (j.arrive id).1 ≠ .undeclared ∧
      ((j.arrive id).1 = .satisfied ↔ ¬ Covered roles A ∧ Covered roles (insert id A)) := by
  have hne : roles.flatten ≠ [] := List.ne_nil_of_mem hid
  have hroles := h.rolesTrack.map_arrive id
  have hcomplete : isComplete ⟨j.roles.map (·.arrive id), j.released⟩ = true ↔
      Covered roles (insert id A) := by
    rw [(hroles j.released).isComplete_iff]
    exact ⟨fun hall => ⟨hne, hall⟩, fun hc => hc.2⟩
  unfold Join.arrive
  rw [if_pos ((h.rolesTrack.declares_iff id).2 hid)]
  dsimp only
  split
  · rename_i hsat
    rw [Bool.and_eq_true, hcomplete, Bool.not_eq_true'] at hsat
    have hcov : ¬ Covered roles A := by
      rw [← h.released_iff, hsat.1]
      exact Bool.false_ne_true
    exact ⟨⟨hroles true, by simp [hsat.2]⟩, by simp, by simp [hcov, hsat.2]⟩
  · rename_i hpend
    rw [Bool.and_eq_true, hcomplete, Bool.not_eq_true', not_and] at hpend
    -- Covered now only if released before, so the answer and the mark agree.
    have hback : Covered roles (insert id A) → Covered roles A := by
      intro hnow
      by_contra hcov
      rw [← h.released_iff, Bool.not_eq_true] at hcov
      exact hpend hcov hnow
    have hiff : Covered roles A ↔ Covered roles (insert id A) :=
      ⟨fun hc => hc.mono (Set.subset_insert id A), hback⟩
    refine ⟨⟨hroles j.released, ?_⟩, by simp, ?_⟩
    · rw [h.released_iff, hiff]
    · simp [hiff]

end Join

/-! ## Ledgers -/

namespace Ledger

variable {l l' : Ledger} {node : NodeId} {roles : List (List NodeId)} {answer : Arrival}

lemma lookup_replace (joins : List (NodeId × Join)) (node m : NodeId) (next : Join) :
    (joins.map fun (k, j) => if k = node then (k, next) else (k, j)).lookup m =
      if m = node then (joins.lookup m).map fun _ => next else joins.lookup m := by
  induction joins with
  | nil => simp
  | cons entry rest ih =>
    obtain ⟨k, j⟩ := entry
    rw [List.map_cons]
    dsimp only
    by_cases hk : k = node
    · rw [if_pos hk, List.lookup_cons, List.lookup_cons]
      by_cases hm : m = k
      · simp [hm, hk]
      · simp only [beq_eq_false_iff_ne.2 hm]
        exact ih
    · rw [if_neg hk, List.lookup_cons, List.lookup_cons]
      by_cases hm : m = k
      · simp [hm, hk]
      · simp only [beq_eq_false_iff_ne.2 hm]
        exact ih

lemma get?_register_self (l : Ledger) (node : NodeId) (roles : List (List NodeId)) :
    (l.register node roles).get? node = some ((l.get? node).getD (.ofRoles roles)) := by
  unfold register
  split
  · rename_i j hj
    simp [hj]
  · rename_i hj
    rw [hj]
    exact List.lookup_cons_self

lemma get?_register_of_ne {m : NodeId} (hm : m ≠ node) :
    (l.register node roles).get? m = l.get? m := by
  unfold register
  split
  · rfl
  · have hb : (m == node) = false := beq_eq_false_iff_ne.2 hm
    simp only [get?, List.lookup_cons, hb]

lemma arrive_of_get? {j : Join} (h : l.get? node = some j) (id : NodeId) :
    (l.arrive node id).1 = (j.arrive id).1 ∧
      (l.arrive node id).2.get? node = some (j.arrive id).2 := by
  unfold arrive
  rw [h]
  refine ⟨rfl, ?_⟩
  simp only [get?] at h ⊢
  rw [lookup_replace, if_pos rfl, h]
  rfl

lemma get?_arrive_of_ne {m : NodeId} (hm : m ≠ node) (id : NodeId) :
    (l.arrive node id).2.get? m = l.get? m := by
  unfold arrive
  split
  · rfl
  · simp only [get?]
    rw [lookup_replace, if_neg hm]

/-- The ids that a node lists as arrived. -/
def arrivals (l : Ledger) (node : NodeId) : Set NodeId :=
  {id | ∃ j, l.get? node = some j ∧ ∃ r ∈ j.roles, id ∈ r.arrived}

lemma mem_arrivals_iff {id : NodeId} :
    id ∈ l.arrivals node ↔ ∃ j, l.get? node = some j ∧ ∃ r ∈ j.roles, id ∈ r.arrived :=
  Iff.rfl

lemma arrivals_congr {m : NodeId} (h : l'.get? m = l.get? m) : l'.arrivals m = l.arrivals m := by
  simp only [arrivals, h]

/-- The join of the node, if it has one, tracks what the ledger lists as arrived. -/
def TracksAt (l : Ledger) (node : NodeId) (roles : List (List NodeId)) : Prop :=
  ∀ j, l.get? node = some j → j.Tracks roles (l.arrivals node)

lemma TracksAt.congr (h : l.TracksAt node roles) (heq : l'.get? node = l.get? node) :
    l'.TracksAt node roles := by
  intro j hj
  rw [heq] at hj
  rw [arrivals_congr heq]
  exact h j hj

lemma TracksAt.mem_flatten (h : l.TracksAt node roles) {id : NodeId}
    (hid : id ∈ l.arrivals node) : id ∈ roles.flatten := by
  obtain ⟨j, hj, hr⟩ := hid
  exact (((h j hj).rolesTrack.exists_mem_arrived_iff id).1 hr).1

/-- A node that is opened now has a join for what has arrived so far. -/
lemma TracksAt.getD (h : l.TracksAt node roles) :
    ((l.get? node).getD (.ofRoles roles)).Tracks roles (l.arrivals node) := by
  cases hj : l.get? node with
  | some j => exact h j hj
  | none =>
    have hempty : l.arrivals node = ∅ := by
      ext id
      simp [arrivals, hj]
    rw [hempty]
    exact Join.tracks_ofRoles roles

/-- The effect of an arrival at a node, opened before if need be, from an id that it declares. -/
structure Receives (l : Ledger) (node : NodeId) (roles : List (List NodeId)) (id : NodeId)
    (answer : Arrival) (l' : Ledger) : Prop where
  get?_ne_none : l'.get? node ≠ none
  tracksAt : l'.TracksAt node roles
  arrivals_eq : l'.arrivals node = insert id (l.arrivals node)
  get?_of_ne : ∀ m, m ≠ node → l'.get? m = l.get? m
  satisfied_iff : answer = .satisfied ↔
    ¬ Covered roles (l.arrivals node) ∧ Covered roles (l'.arrivals node)

/-- The answer to an arrival is `undeclared` exactly if no role declares the id. -/
theorem arrive_eq_undeclared_iff (hl : l.TracksAt node roles) (id : NodeId) :
    ((l.register node roles).arrive node id).1 = .undeclared ↔ id ∉ roles.flatten := by
  rw [(arrive_of_get? (get?_register_self l node roles) id).1]
  by_cases hid : id ∈ roles.flatten
  · exact iff_of_false (hl.getD.arrive hid).2.1 (not_not_intro hid)
  · rw [hl.getD.arrive_of_notMem hid]
    exact iff_of_true rfl hid

/-- An arrival from a declared id adds the id to what has arrived at the node and leaves the
other nodes alone. -/
theorem Receives.of_arrive (hl : l.TracksAt node roles) {id : NodeId}
    (h : (l.register node roles).arrive node id = (answer, l')) (hne : answer ≠ .undeclared) :
    l.Receives node roles id answer l' := by
  -- Every answer but `undeclared` says that a role declares the id.
  have hid : id ∈ roles.flatten := by
    by_contra hid
    exact hne (by rw [← (arrive_eq_undeclared_iff hl id).2 hid, h])
  obtain ⟨hanswer, hget⟩ := arrive_of_get? (get?_register_self l node roles) id
  obtain ⟨htracks, -, hsat⟩ := hl.getD.arrive hid
  rw [h] at hanswer hget
  have harr : l'.arrivals node = insert id (l.arrivals node) := by
    ext x
    rw [mem_arrivals_iff, hget]
    simp only [Option.some.injEq, exists_eq_left']
    rw [htracks.rolesTrack.exists_mem_arrived_iff x]
    refine and_iff_right_of_imp ?_
    rintro (rfl | harr)
    · exact hid
    · exact hl.mem_flatten harr
  refine ⟨by simp [hget], ?_, harr, ?_, ?_⟩
  · intro j hj
    rw [hget, Option.some.injEq] at hj
    rw [← hj, harr]
    exact htracks
  · intro m hm
    have hsnd := get?_arrive_of_ne (l := l.register node roles) hm id
    rw [h] at hsnd
    exact hsnd.trans (get?_register_of_ne hm)
  · rw [harr, ← hsat, ← hanswer]

end Ledger

end NetDiagram.Flow
