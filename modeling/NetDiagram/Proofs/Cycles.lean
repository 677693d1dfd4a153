import Mathlib.Data.List.FinRange
import Mathlib.Logic.Relation
import NetDiagram.Flow.Compilation
import NetDiagram.Proofs.Document
import NetDiagram.Proofs.Findings

/-!
# The check for cycles is exact

The check walks depth first and records the nodes in the order in which they are finished; then it
looks for a link that enters a node from one that was finished before it.  This file shows that
there is such a link exactly if there is a cycle, and that its source lies on one.

The reason is an invariant of the walk, `Exploring`.  A node is active while it has been met and is
not finished.  Active nodes stand on the stack, and each of them leads to all that stands above it.
So when a node is finished, the target of any of its links has been finished before, or is active
and leads back to it.

## Main statements

* `Links.Exploring.search`: the walk keeps the invariant until its stack is empty.
* `Links.cycle?_eq_none_iff`, `Links.onCycle_of_cycle?`: the answer for numbered nodes.
* `Links.cycle?_eq_twoPass?`: the check is the depth-first search in two passes, of which the second
  goes against the links.
-/

namespace NetDiagram.Flow

namespace Links

variable {n : Nat} {g : Links n} {u v w : Fin n} {stack : List (Fin n)} {s s' : Search n}

/-! ## Links -/

/-- There is a link from `v` to `w`. -/
def Linked (g : Links n) (v w : Fin n) : Prop :=
  (v, w) ∈ g.arcs

lemma mem_targets_iff : w ∈ g.targets v ↔ g.Linked v w := by
  simp [targets, Linked]

lemma mem_sources_iff : u ∈ g.sources v ↔ g.Linked u v := by
  simp [sources, Linked]

/-- The node leads back to itself. -/
def OnCycle (g : Links n) (v : Fin n) : Prop :=
  Relation.TransGen g.Linked v v

/-! ## The first pass -/

/-- The node has been met and is not finished. -/
def Search.Active (s : Search n) (v : Fin n) : Prop :=
  v ∈ s.discovered ∧ v ∉ s.finished

/-- The stack and the record of a walk fit together. -/
structure Exploring (g : Links n) (stack : List (Fin n)) (s : Search n) : Prop where
  discovered_of_finished : ∀ v ∈ s.finished, v ∈ s.discovered
  nodup_finished : s.finished.Nodup
  loopless : ∀ v ∈ s.discovered, ¬ g.Linked v v
  active_mem : ∀ v, s.Active v → v ∈ stack
  /-- The links of an active node lead to nodes that have been met or stand above it. -/
  targets_above : ∀ above v below, stack = above ++ v :: below → s.Active v →
    ∀ w, g.Linked v w → w ∈ s.discovered ∨ w ∈ above
  /-- An active node leads to all that stands above its highest place. -/
  leads_above : ∀ above v below, stack = above ++ v :: below → s.Active v → v ∉ above →
    ∀ w ∈ above, Relation.TransGen g.Linked v w
  /-- A link of a finished node leads to one that was finished before, or to one that leads back. -/
  settled : ∀ later v earlier, s.finished = later ++ v :: earlier →
    ∀ w, g.Linked v w → w ∈ earlier ∨ Relation.TransGen g.Linked w v

namespace Exploring

lemma start (g : Links n) : Exploring g [] {} where
  discovered_of_finished v hv := by simp at hv
  nodup_finished := List.nodup_nil
  loopless v hv := by simp at hv
  active_mem v hv := by simp [Search.Active] at hv
  targets_above above v below h := by simp at h
  leads_above above v below h := by simp at h
  settled later v earlier h := by simp at h

lemma not_active (h : Exploring g [] s) (v : Fin n) : ¬ s.Active v :=
  fun hv => List.not_mem_nil (h.active_mem v hv)

/-- While no node is active, the walk can be started anywhere. -/
lemma restart (h : Exploring g [] s) (stack : List (Fin n)) : Exploring g stack s where
  __ := h
  active_mem v hv := absurd hv (h.not_active v)
  targets_above _ v _ _ hv := absurd hv (h.not_active v)
  leads_above _ v _ _ hv := absurd hv (h.not_active v)

/-- The nodes that are put on the stack when `v` is met. -/
def fresh (g : Links n) (s : Search n) (v : Fin n) : List (Fin n) :=
  (g.targets v).filter fun w => !(s.discover v).discovered.contains w

lemma mem_fresh_iff : w ∈ fresh g s v ↔ g.Linked v w ∧ w ∉ (s.discover v).discovered := by
  simp [fresh, mem_targets_iff]

lemma place_of_discover {above below : List (Fin n)}
    (hplace : fresh g s v ++ v :: stack = above ++ u :: below) (hne : u ≠ v)
    (hu : u ∈ s.discovered) :
    ∃ rest, above = fresh g s v ++ v :: rest ∧ v :: stack = (v :: rest) ++ u :: below := by
  rcases List.append_eq_append_iff.1 hplace with ⟨rest, rfl, hrest⟩ | ⟨rest, hfresh, hrest⟩
  · cases rest with
    | nil => exact absurd (List.cons.inj hrest).1.symm hne
    | cons x rest =>
      obtain ⟨rfl, hstack⟩ := List.cons.inj hrest
      exact ⟨rest, rfl, hrest⟩
  · cases rest with
    | nil => exact absurd (List.cons.inj hrest).1 hne
    | cons x rest =>
      obtain ⟨rfl, -⟩ := List.cons.inj hrest
      have hmem : u ∈ fresh g s v := by rw [hfresh]; simp
      exact absurd (List.mem_cons_of_mem v hu) (mem_fresh_iff.1 hmem).2

lemma above_eq_of_discover {above below : List (Fin n)}
    (hplace : fresh g s v ++ v :: stack = above ++ v :: below) :
    ∃ rest, above = fresh g s v ++ rest := by
  rcases List.append_eq_append_iff.1 hplace with ⟨rest, rfl, -⟩ | ⟨rest, hfresh, hrest⟩
  · exact ⟨rest, rfl⟩
  · cases rest with
    | nil => exact ⟨[], by simpa using hfresh.symm⟩
    | cons x rest =>
      obtain ⟨rfl, -⟩ := List.cons.inj hrest
      have hmem : v ∈ fresh g s v := by rw [hfresh]; simp
      exact absurd List.mem_cons_self (mem_fresh_iff.1 hmem).2

/-- **Meeting a node.**  It becomes active, and the targets of its links stand above it. -/
lemma discover (h : Exploring g (v :: stack) s) (hloop : ¬ g.Linked v v) :
    Exploring g (fresh g s v ++ v :: stack) (s.discover v) where
  discovered_of_finished u hu := List.mem_cons_of_mem v (h.discovered_of_finished u hu)
  nodup_finished := h.nodup_finished
  loopless u hu := by
    rcases List.mem_cons.1 hu with rfl | hold
    · exact hloop
    · exact h.loopless u hold
  active_mem u hu := by
    refine List.mem_append_right _ ?_
    rcases List.mem_cons.1 hu.1 with rfl | hold
    · exact List.mem_cons_self
    · exact h.active_mem u ⟨hold, hu.2⟩
  targets_above above u below hplace hu w hw := by
    by_cases hne : u = v
    · subst hne
      obtain ⟨rest, rfl⟩ := above_eq_of_discover hplace
      by_cases hmet : w ∈ (s.discover u).discovered
      · exact Or.inl hmet
      · exact Or.inr (List.mem_append_left _ (mem_fresh_iff.2 ⟨hw, hmet⟩))
    · have hold : u ∈ s.discovered := (List.mem_cons.1 hu.1).resolve_left hne
      obtain ⟨rest, rfl, hstack⟩ := place_of_discover hplace hne hold
      rcases h.targets_above _ u below hstack ⟨hold, hu.2⟩ w hw with hmet | habove
      · exact Or.inl (List.mem_cons_of_mem v hmet)
      · exact Or.inr (List.mem_append_right _ habove)
  leads_above above u below hplace hu hfirst w hw := by
    by_cases hne : u = v
    · subst hne
      obtain ⟨rest, rfl⟩ := above_eq_of_discover hplace
      -- The first place of `u` is the one where it was met, so only new nodes stand above it.
      have hrest : rest = [] := by
        rw [List.append_assoc, List.append_cancel_left_eq] at hplace
        cases rest with
        | nil => rfl
        | cons x rest =>
          obtain ⟨rfl, -⟩ := List.cons.inj hplace
          exact absurd (by simp) hfirst
      rw [hrest, List.append_nil] at hw
      exact .single (mem_fresh_iff.1 hw).1
    · have hold : u ∈ s.discovered := (List.mem_cons.1 hu.1).resolve_left hne
      obtain ⟨rest, rfl, hstack⟩ := place_of_discover hplace hne hold
      have hleads := h.leads_above _ u below hstack ⟨hold, hu.2⟩
        fun hmem => hfirst (List.mem_append_right _ hmem)
      rcases List.mem_append.1 hw with hfresh | habove
      · exact (hleads v List.mem_cons_self).tail (mem_fresh_iff.1 hfresh).1
      · exact hleads w habove
  settled := h.settled

/-- All that an active node on top of the stack is linked to was finished, or leads back to it. -/
lemma settled_top (h : Exploring g (v :: stack) s) (hv : s.Active v) (hw : g.Linked v w) :
    w ∈ s.finished ∨ Relation.TransGen g.Linked w v := by
  have hmet : w ∈ s.discovered := by
    rcases h.targets_above [] v stack rfl hv w hw with hmet | habove
    · exact hmet
    · simp at habove
  by_cases hdone : w ∈ s.finished
  · exact Or.inl hdone
  · refine Or.inr ?_
    have hactive : s.Active w := ⟨hmet, hdone⟩
    have hne : w ≠ v := by
      rintro rfl
      exact h.loopless w hmet hw
    obtain ⟨above, below, hstack, hfirst⟩ := List.eq_append_cons_of_mem (h.active_mem w hactive)
    -- `v` is on top, so it stands above the first place of `w`.
    have htop : v ∈ above := by
      cases above with
      | nil => exact absurd (List.cons.inj hstack).1.symm hne
      | cons x above =>
        obtain ⟨rfl, -⟩ := List.cons.inj hstack
        exact List.mem_cons_self
    exact h.leads_above above w below hstack hactive hfirst v htop

lemma mem_finished_finish : u ∈ (s.finish v).finished ↔ u = v ∨ u ∈ s.finished := by
  unfold Search.finish
  split
  · rename_i hdone
    refine ⟨Or.inr, ?_⟩
    rintro (rfl | hu)
    · exact hdone
    · exact hu
  · exact List.mem_cons

lemma active_finish_iff : (s.finish v).Active u ↔ s.Active u ∧ u ≠ v := by
  unfold Search.Active
  rw [Search.discovered_finish, mem_finished_finish]
  tauto

/-- **Finishing a node.**  A node on top of the stack that was met before is done with. -/
lemma finish (h : Exploring g (v :: stack) s) (hmet : v ∈ s.discovered) :
    Exploring g stack (s.finish v) where
  discovered_of_finished u hu := by
    rw [Search.discovered_finish]
    rcases mem_finished_finish.1 hu with rfl | hold
    · exact hmet
    · exact h.discovered_of_finished u hold
  nodup_finished := by
    unfold Search.finish
    split
    · exact h.nodup_finished
    · rename_i hnew
      exact List.nodup_cons.2 ⟨hnew, h.nodup_finished⟩
  loopless u hu := h.loopless u (Search.discovered_finish s v ▸ hu)
  active_mem u hu := by
    obtain ⟨hactive, hne⟩ := active_finish_iff.1 hu
    exact (List.mem_cons.1 (h.active_mem u hactive)).resolve_left hne
  targets_above above u below hplace hu w hw := by
    rw [Search.discovered_finish]
    have hactive := (active_finish_iff.1 hu).1
    have hplace' : v :: stack = (v :: above) ++ u :: below := by rw [hplace, List.cons_append]
    rcases h.targets_above _ u below hplace' hactive w hw with hold | habove
    · exact Or.inl hold
    · rcases List.mem_cons.1 habove with rfl | habove
      · exact Or.inl hmet
      · exact Or.inr habove
  leads_above above u below hplace hu hfirst w hw := by
    obtain ⟨hactive, hne⟩ := active_finish_iff.1 hu
    have hplace' : v :: stack = (v :: above) ++ u :: below := by rw [hplace, List.cons_append]
    refine h.leads_above _ u below hplace' hactive ?_ w (List.mem_cons_of_mem v hw)
    exact fun hmem => (List.mem_cons.1 hmem).elim hne hfirst
  settled later u earlier hfinished w hw := by
    unfold Search.finish at hfinished
    split at hfinished
    · exact h.settled later u earlier hfinished w hw
    · rename_i hnew
      cases later with
      | nil =>
        obtain ⟨rfl, rfl⟩ := List.cons.inj hfinished
        exact h.settled_top ⟨hmet, hnew⟩ hw
      | cons x later => exact h.settled later u earlier (List.cons.inj hfinished).2 w hw

/-- **The walk.**  It keeps the invariant until its stack is empty. -/
theorem search (h : Exploring g stack s) (hrun : g.search stack s = .ok s') :
    Exploring g [] s' := by
  fun_induction Links.search g stack s with
  | case1 s =>
    rw [Except.ok.injEq] at hrun
    rwa [← hrun]
  | case2 v stack s hmet ih => exact ih (h.finish hmet) hrun
  | case3 v stack s _ hloop => simp at hrun
  | case4 v stack s _ hloop ih =>
    exact ih (h.discover fun hlinked => hloop (mem_targets_iff.2 hlinked)) hrun

end Exploring

lemma linked_of_search_eq_error (hrun : g.search stack s = .error v) : g.Linked v v := by
  fun_induction Links.search g stack s with
  | case1 s => simp at hrun
  | case2 v stack s _ ih => exact ih hrun
  | case3 v stack s _ hloop =>
    rw [Except.error.injEq] at hrun
    exact mem_targets_iff.1 (hrun ▸ hloop)
  | case4 v stack s _ _ ih => exact ih hrun

lemma mem_discovered_of_search (hrun : g.search stack s = .ok s')
    (hv : v ∈ stack ∨ v ∈ s.discovered) : v ∈ s'.discovered := by
  fun_induction Links.search g stack s with
  | case1 s =>
    rw [Except.ok.injEq] at hrun
    simpa [← hrun] using hv
  | case2 u stack s hmet ih =>
    refine ih hrun ?_
    rw [Search.discovered_finish]
    rcases hv with hv | hv
    · rcases List.mem_cons.1 hv with rfl | hv
      · exact Or.inr hmet
      · exact Or.inl hv
    · exact Or.inr hv
  | case3 u stack s _ _ => simp at hrun
  | case4 u stack s _ _ ih =>
    refine ih hrun ?_
    rcases hv with hv | hv
    · exact Or.inl (List.mem_append_right _ hv)
    · exact Or.inr (List.mem_cons_of_mem u hv)

/-- The sequence has every node once, no node is linked to itself, and every link leads to a later
node of the sequence or to one that leads back. -/
structure Sequence (g : Links n) (nodes : List (Fin n)) : Prop where
  nodup : nodes.Nodup
  mem : ∀ v, v ∈ nodes
  loopless : ∀ v, ¬ g.Linked v v
  settled : ∀ before v after, nodes = before ++ v :: after →
    ∀ w, g.Linked v w → w ∈ after ∨ Relation.TransGen g.Linked w v

/-- The nodes in the order of the first pass, the last finished first. -/
theorem sequence_of_search (hrun : g.search (List.finRange n) {} = .ok s) :
    g.Sequence s.finished := by
  have h := ((Exploring.start g).restart (List.finRange n)).search hrun
  have hmet : ∀ v, v ∈ s.discovered := fun v =>
    mem_discovered_of_search hrun (Or.inl (List.mem_finRange v))
  refine ⟨h.nodup_finished, fun v => ?_, fun v => h.loopless v (hmet v), h.settled⟩
  by_contra hnot
  exact h.not_active v ⟨hmet v, hnot⟩

/-! ## The second pass -/

/-- The answer of the second pass is the source of a link that enters a node of the sequence, and it
is not that node and stands nowhere before it. -/
lemma backLink?_eq_some {seen rest : List (Fin n)} (h : g.backLink? seen rest = some u) :
    ∃ before v after, rest = before ++ v :: after ∧ g.Linked u v ∧ u ≠ v ∧ u ∉ before ∧
      u ∉ seen := by
  induction rest generalizing seen with
  | nil => simp [backLink?] at h
  | cons v rest ih =>
    rw [backLink?] at h
    split at h
    · rename_i x hfind
      obtain rfl := Option.some.inj h
      have hsource := mem_sources_iff.1 (List.mem_of_find?_eq_some hfind)
      have hout := List.find?_some hfind
      simp only [Bool.not_eq_true', List.contains_eq_mem, decide_eq_false_iff_not, List.mem_cons,
        not_or] at hout
      exact ⟨[], v, rest, rfl, hsource, hout.1, List.not_mem_nil, hout.2⟩
    · obtain ⟨before, w, after, rfl, hlinked, hne, hbefore, hseen⟩ := ih h
      rw [List.mem_cons, not_or] at hseen
      exact ⟨v :: before, w, after, rfl, hlinked, hne, by simp [hseen.1, hbefore], hseen.2⟩

lemma mem_of_backLink?_eq_none {seen rest : List (Fin n)} (h : g.backLink? seen rest = none)
    {before after : List (Fin n)} (hrest : rest = before ++ v :: after) (hlinked : g.Linked u v) :
    u = v ∨ u ∈ before ∨ u ∈ seen := by
  induction before generalizing seen rest with
  | nil =>
    subst hrest
    rw [List.nil_append, backLink?] at h
    split at h
    · simp at h
    · rename_i hnone
      have hin : u ∈ v :: seen := by
        by_contra hout
        exact List.find?_eq_none.1 hnone u (mem_sources_iff.2 hlinked) (by simpa using hout)
      exact (List.mem_cons.1 hin).imp_right Or.inr
  | cons x before ih =>
    subst hrest
    rw [List.cons_append, backLink?] at h
    split at h
    · simp at h
    · rcases ih h rfl with heq | hbefore | hseen
      · exact Or.inl heq
      · exact Or.inr (Or.inl (List.mem_cons_of_mem x hbefore))
      · rcases List.mem_cons.1 hseen with rfl | hseen
        · exact Or.inr (Or.inl List.mem_cons_self)
        · exact Or.inr (Or.inr hseen)

namespace Sequence

variable {nodes : List (Fin n)}

lemma onCycle_of_backLink? (h : g.Sequence nodes) (hback : g.backLink? [] nodes = some u) :
    g.OnCycle u := by
  obtain ⟨before, v, after, rfl, hlinked, hne, hbefore, -⟩ := backLink?_eq_some hback
  obtain ⟨above, below, habove⟩ : ∃ above below, after = above ++ u :: below := by
    have hmem := h.mem u
    simp only [List.mem_append, List.mem_cons, hbefore, hne, false_or] at hmem
    exact List.append_of_mem hmem
  -- `v` stands before `u`, so it is not after it, and the link from `u` to `v` is led back.
  subst habove
  have hplace : before ++ v :: (above ++ u :: below) = (before ++ v :: above) ++ u :: below := by
    simp
  have hnot : v ∉ below := by
    have hnodup := h.nodup
    rw [List.nodup_append, List.nodup_cons] at hnodup
    intro hmem
    exact hnodup.2.1.1 (by simp [hmem])
  exact .head hlinked ((h.settled _ u below hplace v hlinked).resolve_left hnot)

lemma not_onCycle_of_backLink? (h : g.Sequence nodes) (hback : g.backLink? [] nodes = none) :
    ¬ g.OnCycle u := by
  -- Every link leads to a later place in the sequence, so no chain of links comes back.
  have hstep : ∀ v w, g.Linked v w → nodes.idxOf v < nodes.idxOf w := by
    intro v w hlinked
    obtain ⟨before, after, rfl⟩ := List.append_of_mem (h.mem w)
    have hne : v ≠ w := by
      rintro rfl
      exact h.loopless v hlinked
    have hv : v ∈ before := by
      rcases mem_of_backLink?_eq_none hback rfl hlinked with heq | hbefore | hseen
      · exact absurd heq hne
      · exact hbefore
      · simp at hseen
    have hw : w ∉ before := by
      intro hmem
      have hnodup := h.nodup
      rw [List.nodup_append] at hnodup
      exact hnodup.2.2 w hmem w List.mem_cons_self rfl
    calc
      (before ++ w :: after).idxOf v = before.idxOf v := List.idxOf_append_of_mem hv
      _ < before.length := List.idxOf_lt_length_of_mem hv
      _ ≤ (before ++ w :: after).idxOf w := by
        rw [List.idxOf_append_of_notMem hw]
        exact Nat.le_add_right _ _
  have hpath : ∀ v w, Relation.TransGen g.Linked v w → nodes.idxOf v < nodes.idxOf w := by
    intro v w hpath
    induction hpath with
    | single hlinked => exact hstep _ _ hlinked
    | tail _ hlinked ih => exact ih.trans (hstep _ _ hlinked)
  exact fun hcycle => absurd (hpath u u hcycle) (lt_irrefl _)

end Sequence

/-- **The node that is named lies on a cycle.** -/
theorem onCycle_of_cycle? (h : g.cycle? = some u) : g.OnCycle u := by
  unfold cycle? at h
  split at h
  · rename_i v hrun
    obtain rfl := Option.some.inj h
    exact .single (linked_of_search_eq_error hrun)
  · rename_i s hrun
    exact (sequence_of_search hrun).onCycle_of_backLink? h

/-- **A node is named exactly if there is a cycle.** -/
theorem cycle?_eq_none_iff : g.cycle? = none ↔ ∀ v, ¬ g.OnCycle v := by
  constructor
  · intro h v
    unfold cycle? at h
    split at h
    · simp at h
    · rename_i s hrun
      exact (sequence_of_search hrun).not_onCycle_of_backLink? h
  · intro h
    cases hcycle : g.cycle? with
    | none => rfl
    | some u => exact absurd (onCycle_of_cycle? hcycle) (h u)

/-! ## The two passes one node at a time -/

/-- The first pass: from each node in turn that was not met before, a walk along the links. -/
def firstPass (g : Links n) : List (Fin n) → Search n → Except (Fin n) (Search n)
  | [], s => .ok s
  | v :: rest, s =>
    if s.discovered.contains v then g.firstPass rest s
    else
      match g.search [v] s with
      | .error u => .error u
      | .ok s' => g.firstPass rest s'

/-- The next node of a walk against the links, with the stack and the nodes met after it. -/
def advance? (g : Links n) (met : List (Fin n)) :
    List (Fin n) → Option (Fin n × List (Fin n) × List (Fin n))
  | [] => none
  | v :: stack =>
    if met.contains v then g.advance? met stack
    else some (v, (g.sources v).filter (fun u => !(v :: met).contains u) ++ stack, v :: met)

/-- The second pass: from each node in turn, a walk against the links.  The answer is the second
node of such a walk. -/
def secondPass? (g : Links n) (met : List (Fin n)) : List (Fin n) → Option (Fin n)
  | [] => none
  | v :: rest =>
    match g.advance? met [v] with
    | none => g.secondPass? met rest
    | some (_, stack, met₁) =>
      match g.advance? met₁ stack with
      | none => g.secondPass? met₁ rest
      | some (u, _, _) => some u

/-- The depth-first search in two passes, the second one over the nodes in the reverse of the order
in which the first one finished them. -/
def twoPass? (g : Links n) : Option (Fin n) :=
  match g.firstPass (List.finRange n) {} with
  | .error v => some v
  | .ok s => g.secondPass? [] s.finished

lemma search_append (g : Links n) (above below : List (Fin n)) (s : Search n) :
    g.search (above ++ below) s =
      match g.search above s with
      | .error u => .error u
      | .ok s' => g.search below s' := by
  fun_induction Links.search g above s with
  | case1 s => rfl
  | case2 v above s hmet ih => rw [List.cons_append, Links.search, if_pos hmet, ih]
  | case3 v above s hnew hloop =>
    rw [List.cons_append, Links.search, if_neg hnew, if_pos hloop]
  | case4 v above s hnew hloop ih =>
    rw [List.cons_append, Links.search, if_neg hnew, if_neg hloop, ← ih, List.append_assoc,
      List.cons_append]

/-- Between two walks no node is active, so a node that was met is finished. -/
lemma firstPass_eq_search (h : g.Exploring [] s) (nodes : List (Fin n)) :
    g.firstPass nodes s = g.search nodes s := by
  induction nodes generalizing s with
  | nil => rw [firstPass, Links.search]
  | cons v rest ih =>
    rw [firstPass]
    split
    · rename_i hcontains
      have hmet : v ∈ s.discovered := List.contains_iff_mem.1 hcontains
      -- Nothing is active here, so the node that was met is finished, and the walk drops it too.
      have hdone : v ∈ s.finished := by
        by_contra hnot
        exact h.not_active v ⟨hmet, hnot⟩
      rw [ih h, Links.search, if_pos hmet, Search.finish, if_pos hdone]
    · have happend := search_append g [v] rest s
      rw [List.singleton_append] at happend
      rw [happend]
      cases hrun : g.search [v] s with
      | error u => rfl
      | ok s' => exact ih ((h.restart [v]).search hrun)

/-- The second node of a walk against the links is the first source that was not met before. -/
lemma backLink?_eq_secondPass? {seen rest : List (Fin n)} (hnodup : rest.Nodup)
    (hnew : ∀ v ∈ rest, v ∉ seen) : g.backLink? seen rest = g.secondPass? seen rest := by
  induction rest generalizing seen with
  | nil => rfl
  | cons v rest ih =>
    rw [List.nodup_cons] at hnodup
    rw [List.forall_mem_cons] at hnew
    have hrest : ∀ w ∈ rest, w ∉ v :: seen := by
      intro w hw hmem
      rcases List.mem_cons.1 hmem with rfl | hmem
      · exact hnodup.1 hw
      · exact hnew.2 w hw hmem
    have hv : ¬ seen.contains v = true := fun h => hnew.1 (List.contains_iff_mem.1 h)
    rw [backLink?, secondPass?, advance?, if_neg hv, List.append_nil, ih hnodup.2 hrest,
      ← List.head?_filter]
    -- A second walk looks at the sources in order and stops at the first that it has not met.
    cases hsources : (g.sources v).filter fun u => !(v :: seen).contains u with
    | nil => rfl
    | cons u stack =>
      have hu : u ∉ v :: seen := by
        have hmem : u ∈ (g.sources v).filter fun u => !(v :: seen).contains u := by
          rw [hsources]
          exact List.mem_cons_self
        simpa using (List.mem_filter.1 hmem).2
      simp [advance?, hu]

/-- **The two passes.**  The check is the depth-first search in two passes. -/
theorem cycle?_eq_twoPass? (g : Links n) : g.cycle? = g.twoPass? := by
  unfold cycle? twoPass?
  rw [firstPass_eq_search (.start g)]
  cases hrun : g.search (List.finRange n) {} with
  | error v => rfl
  | ok s =>
    exact backLink?_eq_secondPass? (sequence_of_search hrun).nodup fun _ _ => List.not_mem_nil

end Links

end NetDiagram.Flow

namespace NetDiagram

/-! ## Documents -/

namespace Document

/-- The layer `p` has `n` among its outputs, and `n` is a layer or a model. -/
def Leads (d : Document) (p n : NodeId) : Prop :=
  d.Feeds p n ∧ ((∃ l, d.get? n = some (.layer l)) ∨ ∃ m, d.get? n = some (.model m))

/-- Output connections among layers and models lead from the id back to it. -/
def OnCycle (d : Document) (id : NodeId) : Prop :=
  Relation.TransGen d.Leads id id

end Document

namespace Flow

variable {d : Document}

lemma mem_flowEntities_iff {e : Entity} :
    e ∈ flowEntities d ↔ e ∈ d.entities ∧ ((∃ l, e = .layer l) ∨ ∃ m, e = .model m) := by
  unfold flowEntities
  rw [List.mem_filter]
  cases e <;> simp

/-- The id of a numbered node. -/
def flowId (d : Document) (i : Fin (flowEntities d).length) : NodeId :=
  ((flowEntities d).get i).id

lemma get?_flowId (i : Fin (flowEntities d).length) :
    d.get? (flowId d i) = some ((flowEntities d).get i) :=
  Document.get?_of_mem (mem_flowEntities_iff.1 (List.get_mem _ i)).1

lemma flowId_injective : Function.Injective (flowId d) := by
  intro i j hij
  have hnodup : ((flowEntities d).map Entity.id).Nodup :=
    d.nodup.sublist (List.filter_sublist.map Entity.id)
  have hmap : ((flowEntities d).map Entity.id)[i.1]? = ((flowEntities d).map Entity.id)[j.1]? := by
    simpa [flowId] using hij
  exact Fin.ext ((List.getElem?_inj (by simp) hnodup).1 hmap)

lemma exists_flowId {id : NodeId}
    (h : (∃ l, d.get? id = some (.layer l)) ∨ ∃ m, d.get? id = some (.model m)) :
    ∃ i, flowId d i = id := by
  obtain ⟨e, hget, hflow⟩ : ∃ e, d.get? id = some e ∧ e ∈ flowEntities d := by
    rcases h with ⟨l, hget⟩ | ⟨m, hget⟩
    · exact ⟨_, hget, mem_flowEntities_iff.2 ⟨Document.mem_of_get? hget, Or.inl ⟨l, rfl⟩⟩⟩
    · exact ⟨_, hget, mem_flowEntities_iff.2 ⟨Document.mem_of_get? hget, Or.inr ⟨m, rfl⟩⟩⟩
  obtain ⟨i, hi⟩ := List.mem_iff_get.1 hflow
  exact ⟨i, by rw [flowId, hi, Document.id_of_get? hget]⟩

lemma findFinIdx?_flowId {id : NodeId} {j : Fin (flowEntities d).length} :
    (flowEntities d).findFinIdx? (·.id == id) = some j ↔ flowId d j = id := by
  rw [List.findFinIdx?_eq_some_iff]
  simp only [beq_iff_eq]
  constructor
  · exact fun h => h.1
  · intro h
    refine ⟨h, fun i hi heq => ?_⟩
    exact absurd (flowId_injective (heq.trans h.symm)) (ne_of_lt hi)

/-- The links between the numbered nodes are the connections between their ids. -/
theorem linked_iff_leads {i j : Fin (flowEntities d).length} :
    (flowLinks d).Linked i j ↔ d.Leads (flowId d i) (flowId d j) := by
  unfold Links.Linked flowLinks
  dsimp only
  rw [List.mem_flatMap]
  constructor
  · rintro ⟨i', -, hmem⟩
    split at hmem
    · rename_i l hl
      obtain ⟨j', hj', heq⟩ := List.mem_map.1 hmem
      obtain ⟨rfl, rfl⟩ := Prod.mk.inj heq
      obtain ⟨id, hid, hfind⟩ := List.mem_filterMap.1 hj'
      -- Connections to other kinds of entities have no index, and they give no link.
      rw [findFinIdx?_flowId] at hfind
      refine ⟨⟨l, by rw [get?_flowId, hl], hfind ▸ hid⟩, ?_⟩
      rw [get?_flowId]
      simpa using (mem_flowEntities_iff.1 (List.get_mem (flowEntities d) j')).2
    · simp at hmem
  · rintro ⟨⟨l, hget, hmem⟩, -⟩
    have hl : (flowEntities d).get i = .layer l :=
      Option.some.inj ((get?_flowId i).symm.trans hget)
    refine ⟨i, List.mem_finRange i, ?_⟩
    rw [hl]
    exact List.mem_map.2 ⟨j, List.mem_filterMap.2 ⟨_, hmem, findFinIdx?_flowId.2 rfl⟩, rfl⟩

lemma exists_transGen_linked {p n : NodeId} (h : Relation.TransGen d.Leads p n) :
    ∃ i j, flowId d i = p ∧ flowId d j = n ∧ Relation.TransGen (flowLinks d).Linked i j := by
  have hstep : ∀ {a b}, d.Leads a b →
      ∃ i j, flowId d i = a ∧ flowId d j = b ∧ (flowLinks d).Linked i j := by
    intro a b hleads
    obtain ⟨i, rfl⟩ : ∃ i, flowId d i = a := by
      obtain ⟨l, hget, -⟩ := hleads.1
      exact exists_flowId (Or.inl ⟨l, hget⟩)
    obtain ⟨j, rfl⟩ := exists_flowId hleads.2
    exact ⟨i, j, rfl, rfl, linked_iff_leads.2 hleads⟩
  induction h with
  | single hleads =>
    obtain ⟨i, j, hi, hj, hlinked⟩ := hstep hleads
    exact ⟨i, j, hi, hj, .single hlinked⟩
  | tail _ hleads ih =>
    obtain ⟨i, j, hi, hj, hpath⟩ := ih
    obtain ⟨j', k, hj', hk, hlinked⟩ := hstep hleads
    obtain rfl : j' = j := flowId_injective (hj'.trans hj.symm)
    exact ⟨i, k, hi, hk, hpath.tail hlinked⟩

lemma onCycle_flowId_iff {i : Fin (flowEntities d).length} :
    (flowLinks d).OnCycle i ↔ d.OnCycle (flowId d i) := by
  constructor
  · exact fun h => h.lift (flowId d) fun _ _ hlinked => linked_iff_leads.1 hlinked
  · intro h
    obtain ⟨j, k, hj, hk, hpath⟩ := exists_transGen_linked h
    obtain rfl := flowId_injective hj
    obtain rfl := flowId_injective hk
    exact hpath

/-- The check passes exactly the documents without cycles. -/
theorem checkAcyclic_eq_ok_iff : checkAcyclic d = .ok () ↔ ∀ id, ¬ d.OnCycle id := by
  have hnone : checkAcyclic d = .ok () ↔ (flowLinks d).cycle? = none := by
    unfold checkAcyclic
    cases (flowLinks d).cycle? <;> simp
  rw [hnone, Links.cycle?_eq_none_iff]
  constructor
  · intro h id hcycle
    obtain ⟨i, -, rfl, -⟩ := exists_transGen_linked hcycle
    exact h i (onCycle_flowId_iff.2 hcycle)
  · intro h i hcycle
    exact h _ (onCycle_flowId_iff.1 hcycle)

lemma exists_onCycle_of_checkAcyclic {fault : Fault} (h : checkAcyclic d = .error fault) :
    ∃ e ∈ d.entities, fault = .cyclic e ∧ d.OnCycle e.id := by
  unfold checkAcyclic at h
  split at h
  · rename_i i hcycle
    rw [Except.error.injEq] at h
    refine ⟨_, (mem_flowEntities_iff.1 (List.get_mem _ i)).1, h.symm, ?_⟩
    exact onCycle_flowId_iff.1 (Links.onCycle_of_cycle? hcycle)
  · simp at h

/-- **The check for cycles is exact.**  It is a depth-first search in two passes over the output
connections.  It passes a document exactly if no connections among its layers and models lead back
to where they started; and the entity that it names, in its message and by its label, lies on such
a cycle. -/
theorem checkAcyclic_exact (d : Document) :
    checkAcyclic d =
      (match (flowLinks d).twoPass? with
        | some i => .error (.cyclic ((flowEntities d).get i))
        | none => .ok ()) ∧
    (checkAcyclic d = .ok () ↔ ∀ id, ¬ Relation.TransGen d.Leads id id) ∧
    ∀ fault, checkAcyclic d = .error fault →
      ∃ e ∈ d.entities, Relation.TransGen d.Leads e.id e.id ∧
        fault.diagnostic.code.map Code.name = some "E201" ∧
        fault.diagnostic.message = ticked e.label ++ " is part of a cycle of output connections" ∧
        fault.diagnostic.labels =
          (e.span.map fun place => ⟨place, "cycle passes through this node", true⟩).toList := by
  refine ⟨by rw [← Links.cycle?_eq_twoPass?]; rfl, checkAcyclic_eq_ok_iff, fun fault hfault => ?_⟩
  obtain ⟨e, he, rfl, hcycle⟩ := exists_onCycle_of_checkAcyclic hfault
  refine ⟨e, he, hcycle, ?_, by simp [Fault.diagnostic], by simp [Fault.diagnostic]⟩
  rw [Fault.code_diagnostic]
  rfl

/-- A layer that is connected to the given ids. -/
def detourLayer (id : String) (output : List String) : Layer where
  id := .ofText id
  var := id
  className := "Dense"
  output := output.map .ofText

/-- Two ways lead to `d`, one of them twice, and from there on to the given ids. -/
def detour (onward : List String) : Document where
  entities :=
    [.layer (detourLayer "a" ["b", "c"]), .layer (detourLayer "b" ["d"]),
      .layer (detourLayer "c" ["d", "d", "nowhere"]), .layer (detourLayer "d" onward),
      .model { id := .ofText "m", var := "model" }]
  nodup := by
    change (["a", "b", "c", "d", "m"].map NodeId.ofText).Nodup
    decide +kernel

/-- What the check reports if `d` is connected to `c`.  It is not `b`, from which the cycle is
entered. -/
def detourFault : Fault :=
  .cyclic (.layer (detourLayer "c" ["d", "d", "nowhere"]))

/-- If `d` is connected to `c`, a node of the cycle is named; if it is connected to the model only,
the document passes. -/
theorem checkAcyclic_detour :
    (checkAcyclic (detour ["c"]) = .error detourFault ∧
      ∃ e ∈ (detour ["c"]).entities, Relation.TransGen (detour ["c"]).Leads e.id e.id ∧
        detourFault.diagnostic.message =
          ticked e.label ++ " is part of a cycle of output connections") ∧
    checkAcyclic (detour ["m"]) = .ok () ∧
      ∀ id, ¬ Relation.TransGen (detour ["m"]).Leads id id := by
  have herror : checkAcyclic (detour ["c"]) = .error detourFault := by cbv
  have hok : checkAcyclic (detour ["m"]) = .ok () := by cbv
  obtain ⟨e, he, hcycle, -, hmessage, -⟩ :=
    (checkAcyclic_exact (detour ["c"])).2.2 detourFault herror
  exact ⟨⟨herror, e, he, hcycle, hmessage⟩, hok, (checkAcyclic_exact (detour ["m"])).2.1.1 hok⟩

end Flow

end NetDiagram
