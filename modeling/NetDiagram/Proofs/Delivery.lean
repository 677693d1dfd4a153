import NetDiagram.Proofs.Ledger
import NetDiagram.Proofs.Rendering
import NetDiagram.Proofs.Walk

/-!
# Every connection is delivered once

While statements are written, a connection of a layer that has a statement is in one of three
states: it is still to be followed, or the ledger lists its arrival at the target, or its target is
a layer that has a statement itself.  `Coherent` says so, together with the converse (the ledger
lists nothing else) and with what the ledger owes: a node whose declared predecessors have all
arrived has a statement.

The invariant is kept by three elementary moves, of which every step is made: writing a node
(`Coherent.write`), recording an arrival (`Coherent.receive`), and dropping a connection to a layer
that has been written (`Coherent.drop`).

## Main statements

* `Walk.Reached.coherent`: every walk of a compilation is coherent.
* `Walk.Reached.joined`: a model has a statement only if all that it lists has arrived, so that no
  node is written twice.
-/

namespace NetDiagram.Flow

/-! ## Writing -/

namespace Draft

variable {d : Document} {t t' : Draft}

lemma renders_of_writeLayer {l : Layer} {call : Option String}
    (h : writeLayer d t l call = .ok t') :
    ∃ texts s, Renders d [] (.layer l) (.args l.args) (t.scope.touch layerSource) texts s ∧
      t' = { t with
        scope := s.bind l.id l.var
        statements := t.statements ++
          [⟨l.var, layerSource, l.className, ", ".intercalate texts, call⟩]
        emitted := t.emitted ++ [l.id] } := by
  unfold writeLayer at h
  split at h
  · simp at h
  · rename_i texts s hrun
    rw [Except.ok.injEq] at h
    exact ⟨texts, s, .of_renderArgs hrun, h.symm⟩

lemma renders_of_writeModel {m : Model} (h : writeModel d t m = .ok t') :
    ∃ texts s, Renders d [] (.model m) (.args m.args) (t.scope.touch modelSource) texts s ∧
      t' = { t with
        scope := s
        statements := t.statements ++
          [⟨m.var, modelSource, m.className, ", ".intercalate texts, none⟩]
        endpoints := t.endpoints ++ [m.var]
        emitted := t.emitted ++ [m.id] } := by
  unfold writeModel at h
  split at h
  · simp at h
  · rename_i texts s hrun
    rw [Except.ok.injEq] at h
    exact ⟨texts, s, .of_renderArgs hrun, h.symm⟩

end Draft

/-- The connections that leave an entity. -/
def entityConnections : Entity → List (Layer × NodeId)
  | .layer l => connections l
  | _ => []

/-! ## Coherence -/

/-- The connections that are to be followed, the ledger and the written nodes fit together. -/
structure Coherent (d : Document) (entrances : List Layer) (links : List (Layer × NodeId))
    (ledger : Ledger) (emitted : List NodeId) : Prop where
  entrance_mem : ∀ l ∈ entrances, l ∈ d.entrances
  entered : ∀ l ∈ d.entrances, l ∈ entrances ∨ l.id ∈ emitted
  /-- A connection is followed from a layer that has a statement. -/
  source_mem : ∀ p n, (p, n) ∈ links →
    d.get? p.id = some (.layer p) ∧ p.id ∈ emitted ∧ n ∈ p.output
  tracks : ∀ n, ledger.TracksAt n (d.roles n)
  /-- What has arrived has a statement and is connected. -/
  arrived : ∀ n, ∀ p ∈ ledger.arrivals n, p ∈ emitted ∧ d.Feeds p n
  /-- A join is opened by an arrival. -/
  opened : ∀ n, ledger.get? n ≠ none → (ledger.arrivals n).Nonempty
  /-- A node for which everything has arrived has a statement. -/
  released : ∀ n, Covered (d.roles n) (ledger.arrivals n) → n ∈ emitted
  /-- A connection of a layer that has a statement is to be followed, or it has arrived, or its
  target is a layer that has a statement. -/
  delivered : ∀ p n, p ∈ emitted → d.Feeds p n →
    (∃ l : Layer, (l, n) ∈ links ∧ l.id = p) ∨ p ∈ ledger.arrivals n ∨
      (∃ l, d.get? n = some (.layer l)) ∧ n ∈ emitted

namespace Coherent

variable {d : Document} {entrances : List Layer} {links links' : List (Layer × NodeId)}
  {ledger ledger' : Ledger} {emitted : List NodeId}

lemma start (d : Document) : Coherent d d.entrances [] {} [] where
  entrance_mem l hl := hl
  entered l hl := Or.inl hl
  source_mem p n h := by simp at h
  tracks n j hj := by simp [Ledger.get?] at hj
  arrived n p hp := by simp [Ledger.mem_arrivals_iff, Ledger.get?] at hp
  opened n h := by simp [Ledger.get?] at h
  released n h := by
    obtain ⟨id, hid⟩ := List.exists_mem_of_ne_nil _ h.1
    simpa [Ledger.mem_arrivals_iff, Ledger.get?] using h.2 id hid
  delivered p n h := by simp at h

lemma perm (h : Coherent d entrances links ledger emitted) (hperm : links.Perm links') :
    Coherent d entrances links' ledger emitted where
  __ := h
  source_mem p n hmem := h.source_mem p n (hperm.mem_iff.2 hmem)
  delivered p n hp hfeeds := (h.delivered p n hp hfeeds).imp_left
    fun ⟨l, hmem, hl⟩ => ⟨l, hperm.mem_iff.1 hmem, hl⟩

lemma write (h : Coherent d entrances links ledger emitted) {id : NodeId} {e : Entity}
    (hget : d.get? id = some e) :
    Coherent d entrances (entityConnections e ++ links) ledger (emitted ++ [id]) where
  __ := h
  entered l hl := (h.entered l hl).imp_right (List.mem_append_left _)
  source_mem p n hmem := by
    rcases List.mem_append.1 hmem with hnew | hold
    · cases e with
      | layer l =>
        obtain ⟨n', hn', heq⟩ := List.mem_map.1 hnew
        obtain ⟨rfl, rfl⟩ := Prod.mk.injEq _ _ _ _ ▸ heq
        obtain rfl : l.id = id := Document.id_of_get? hget
        exact ⟨hget, List.mem_append_right _ (List.mem_singleton.2 rfl), hn'⟩
      | _ => simp [entityConnections] at hnew
    · obtain ⟨hp, hmem, hn⟩ := h.source_mem p n hold
      exact ⟨hp, List.mem_append_left _ hmem, hn⟩
  arrived n p hp := (h.arrived n p hp).imp_left (List.mem_append_left _)
  released n hn := List.mem_append_left _ (h.released n hn)
  delivered p n hp hfeeds := by
    rcases List.mem_append.1 hp with hold | hnew
    · rcases h.delivered p n hold hfeeds with ⟨l, hmem, hl⟩ | harr | ⟨hlayer, hn⟩
      · exact Or.inl ⟨l, List.mem_append_right _ hmem, hl⟩
      · exact Or.inr (Or.inl harr)
      · exact Or.inr (Or.inr ⟨hlayer, List.mem_append_left _ hn⟩)
    · obtain rfl := List.mem_singleton.1 hnew
      obtain ⟨l, hl, hn⟩ := hfeeds
      obtain rfl : e = .layer l := Option.some.inj (hget.symm.trans hl)
      exact Or.inl ⟨l, List.mem_append_left _ (List.mem_map_of_mem hn), Document.id_of_get? hget⟩

lemma skip {l : Layer} (h : Coherent d (l :: entrances) links ledger emitted)
    (hmem : l.id ∈ emitted) : Coherent d entrances links ledger emitted where
  __ := h
  entrance_mem l' hl' := h.entrance_mem l' (List.mem_cons_of_mem _ hl')
  entered l' hl' := by
    rcases h.entered l' hl' with hwait | hdone
    · rcases List.mem_cons.1 hwait with rfl | hwait
      · exact Or.inr hmem
      · exact Or.inl hwait
    · exact Or.inr hdone

variable {p : Layer} {n : NodeId}

lemma drop {l : Layer} (h : Coherent d entrances ((p, n) :: links) ledger emitted)
    (hget : d.get? n = some (.layer l)) (hmem : n ∈ emitted) :
    Coherent d entrances links ledger emitted where
  __ := h
  source_mem p' n' hmem' := h.source_mem p' n' (List.mem_cons_of_mem _ hmem')
  delivered p' n' hp' hfeeds := by
    rcases h.delivered p' n' hp' hfeeds with ⟨l', hlink, hl'⟩ | hdone
    · rcases List.mem_cons.1 hlink with heq | hlink
      · obtain ⟨rfl, rfl⟩ := Prod.mk.injEq _ _ _ _ ▸ heq
        exact Or.inr (Or.inr ⟨⟨l, hget⟩, hmem⟩)
      · exact Or.inl ⟨l', hlink, hl'⟩
    · exact Or.inr hdone

/-- What has arrived at the target of a connection that arrives. -/
lemma arrived_receive {answer : Arrival}
    (h : Coherent d entrances ((p, n) :: links) ledger emitted)
    (hr : ledger.Receives n (d.roles n) p.id answer ledger') {id : NodeId}
    (hid : id ∈ ledger'.arrivals n) : id ∈ emitted ∧ d.Feeds id n := by
  rw [hr.arrivals_eq] at hid
  rcases hid with rfl | hold
  · obtain ⟨hp, hmem, hn⟩ := h.source_mem p n List.mem_cons_self
    exact ⟨hmem, p, hp, hn⟩
  · exact h.arrived n id hold

/-- A connection that arrives is done with; its target needs a statement if nothing is
outstanding now. -/
lemma receive {answer : Arrival} (h : Coherent d entrances ((p, n) :: links) ledger emitted)
    (hr : ledger.Receives n (d.roles n) p.id answer ledger')
    (hcov : Covered (d.roles n) (ledger'.arrivals n) → n ∈ emitted) :
    Coherent d entrances links ledger' emitted := by
  have hother : ∀ {m}, m ≠ n → ledger'.arrivals m = ledger.arrivals m :=
    fun hm => Ledger.arrivals_congr (hr.get?_of_ne _ hm)
  -- Only the target of the connection changes; at every other node the ledger is as it was.
  refine { h with
    source_mem := fun p' n' hmem' => h.source_mem p' n' (List.mem_cons_of_mem _ hmem')
    tracks := fun m => ?_
    arrived := fun m p' hp' => ?_
    opened := fun m hm => ?_
    released := fun m hm => ?_
    delivered := fun p' m hp' hfeeds => ?_ }
  · by_cases hm : m = n
    · exact hm ▸ hr.tracksAt
    · exact (h.tracks m).congr (hr.get?_of_ne m hm)
  · by_cases hm : m = n
    · subst hm
      exact h.arrived_receive hr hp'
    · exact h.arrived m p' (hother hm ▸ hp')
  · by_cases hm' : m = n
    · subst hm'
      rw [hr.arrivals_eq]
      exact Set.insert_nonempty _ _
    · rw [hother hm']
      exact h.opened m (hr.get?_of_ne m hm' ▸ hm)
  · by_cases hm' : m = n
    · subst hm'
      exact hcov hm
    · exact h.released m (hother hm' ▸ hm)
  · rcases h.delivered p' m hp' hfeeds with ⟨l, hlink, rfl⟩ | harr | hdone
    -- The connection on top of the stack is the one that has arrived now.
    · rcases List.mem_cons.1 hlink with heq | hlink
      · obtain ⟨rfl, rfl⟩ := Prod.mk.injEq _ _ _ _ ▸ heq
        exact Or.inr (Or.inl (hr.arrivals_eq ▸ Set.mem_insert _ _))
      · exact Or.inl ⟨l, hlink, rfl⟩
    · refine Or.inr (Or.inl ?_)
      by_cases hm : m = n
      · subst hm
        exact hr.arrivals_eq ▸ Set.mem_insert_of_mem _ harr
      · exact (hother hm).symm ▸ harr
    · exact Or.inr (Or.inr hdone)

end Coherent

/-! ## Walks -/

namespace Walk

variable {d : Document} {w w' : Walk}

/-- The walk is coherent. -/
protected def Coherent (d : Document) (w : Walk) : Prop :=
  Flow.Coherent d w.entrances w.links w.draft.ledger w.draft.emitted

/-- An arrival that a step records. -/
lemma Coherent.receives {n : NodeId} {e : Entity} {p : Layer} {answer : Arrival}
    {ledger : Ledger} (h : w.Coherent d) (hget : d.get? n = some e)
    (harrive : (w.draft.ledger.register n e.roles).arrive n p.id = (answer, ledger))
    (hne : answer ≠ .undeclared) :
    w.draft.ledger.Receives n (d.roles n) p.id answer ledger := by
  rw [← Document.roles_of_get? hget] at harrive
  exact .of_arrive (h.tracks n) harrive hne

lemma Step.coherent (hs : Step d w w') (h : w.Coherent d) : w'.Coherent d := by
  cases hs with
  | skip hold => exact Flow.Coherent.skip h hold
  | @enter l entrances t t' _ _ hwrite =>
    obtain ⟨texts, s, -, rfl⟩ := Draft.renders_of_writeLayer hwrite
    have hget := (Document.mem_entrances_iff.1 (h.entrance_mem l List.mem_cons_self)).1
    have hwritten := Flow.Coherent.write h hget
    rw [List.append_nil] at hwritten
    exact hwritten.skip (List.mem_append_right _ (List.mem_singleton.2 rfl))
  | again hget _ hold => exact Flow.Coherent.drop h hget hold
  | single hget _ _ _ hwrite =>
    obtain ⟨texts, s, -, rfl⟩ := Draft.renders_of_writeLayer hwrite
    exact ((Flow.Coherent.write h hget).perm List.perm_middle).drop hget
      (List.mem_append_right _ (List.mem_singleton.2 rfl))
  | @pending p e _ _ t ledger hget harrive =>
    have hr := h.receives hget harrive (by simp)
    refine Flow.Coherent.receive h hr fun hcov => ?_
    -- Nothing is outstanding now, so nothing was outstanding before.
    by_contra hnot
    have hbefore : ¬ Covered (d.roles e.id) (t.ledger.arrivals e.id) :=
      fun hc => hnot (h.released e.id hc)
    exact absurd (hr.satisfied_iff.2 ⟨hbefore, hcov⟩) (by simp)
  | joinLayer hget _ _ _ harrive hwrite =>
    obtain ⟨texts, s, -, rfl⟩ := Draft.renders_of_writeLayer hwrite
    have hr := h.receives hget harrive (by simp)
    exact ((Flow.Coherent.write h hget).perm List.perm_middle).receive hr
      fun _ => List.mem_append_right _ (List.mem_singleton.2 rfl)
  | joinModel hget harrive hwrite =>
    obtain ⟨texts, s, -, rfl⟩ := Draft.renders_of_writeModel hwrite
    have hr := h.receives hget harrive (by simp)
    exact (Flow.Coherent.write h hget).receive hr
      fun _ => List.mem_append_right _ (List.mem_singleton.2 rfl)

/-- **Coherence.**  Every walk of a compilation is coherent. -/
theorem Reached.coherent (h : Reached d w) : w.Coherent d :=
  h.induction (Flow.Coherent.start d) fun _ _ _ hs hw => hs.coherent hw

end Walk

/-! ## No node is written twice -/

/-- No node has two statements, and the models that have one were complete. -/
structure Joined (d : Document) (ledger : Ledger) (emitted : List NodeId) : Prop where
  nodup : emitted.Nodup
  covered : ∀ n m, d.get? n = some (.model m) → n ∈ emitted →
    Covered (d.roles n) (ledger.arrivals n)

namespace Joined

variable {d : Document} {ledger ledger' : Ledger} {emitted : List NodeId} {n : NodeId}

lemma start (d : Document) : Joined d {} [] :=
  ⟨List.nodup_nil, by simp⟩

lemma write (h : Joined d ledger emitted) (hnew : n ∉ emitted)
    (hcov : ∀ m, d.get? n = some (.model m) → Covered (d.roles n) (ledger.arrivals n)) :
    Joined d ledger (emitted ++ [n]) where
  nodup := by
    refine List.nodup_append.2 ⟨h.nodup, by simp, ?_⟩
    rintro x hx y hy rfl
    exact hnew (List.mem_singleton.1 hy ▸ hx)
  covered x m hget hmem := by
    rcases List.mem_append.1 hmem with hold | hlast
    · exact h.covered x m hget hold
    · obtain rfl := List.mem_singleton.1 hlast
      exact hcov m hget

lemma receive {roles : List (List NodeId)} {id : NodeId} {answer : Arrival}
    (h : Joined d ledger emitted) (hr : ledger.Receives n roles id answer ledger') :
    Joined d ledger' emitted where
  nodup := h.nodup
  covered x m hget hmem := by
    refine (h.covered x m hget hmem).mono ?_
    by_cases hx : x = n
    · subst hx
      rw [hr.arrivals_eq]
      exact Set.subset_insert _ _
    · rw [Ledger.arrivals_congr (hr.get?_of_ne x hx)]

end Joined

namespace Walk

variable {d : Document} {w w' : Walk}

lemma Step.joined (hs : Step d w w') (hc : w.Coherent d)
    (h : Joined d w.draft.ledger w.draft.emitted) :
    Joined d w'.draft.ledger w'.draft.emitted := by
  cases hs with
  | skip _ => exact h
  | again _ _ _ => exact h
  | @enter l entrances t t' _ hnew hwrite =>
    obtain ⟨texts, s, -, rfl⟩ := Draft.renders_of_writeLayer hwrite
    have hget := (Document.mem_entrances_iff.1 (hc.entrance_mem l List.mem_cons_self)).1
    exact h.write hnew fun m hm => by simp [hget] at hm
  | single hget _ hnew _ hwrite =>
    obtain ⟨texts, s, -, rfl⟩ := Draft.renders_of_writeLayer hwrite
    exact h.write hnew fun m hm => by simp [hget] at hm
  | pending hget harrive => exact h.receive (hc.receives hget harrive (by simp))
  | joinLayer hget _ hnew _ harrive hwrite =>
    obtain ⟨texts, s, -, rfl⟩ := Draft.renders_of_writeLayer hwrite
    exact (h.receive (hc.receives hget harrive (by simp))).write hnew
      fun m hm => by simp [hget] at hm
  | @joinModel p m _ _ t _ _ hget harrive hwrite =>
    obtain ⟨texts, s, -, rfl⟩ := Draft.renders_of_writeModel hwrite
    have hr := hc.receives hget harrive (by simp)
    obtain ⟨hbefore, hnow⟩ := hr.satisfied_iff.1 rfl
    -- A model that was written was complete before, but this arrival completes it.
    have hnew : m.id ∉ t.emitted := fun hmem => hbefore (h.covered m.id m hget hmem)
    exact (h.receive hr).write hnew fun _ _ => hnow

/-- **No repetition.**  In every walk of a compilation no node has two statements. -/
theorem Reached.joined (h : Reached d w) : Joined d w.draft.ledger w.draft.emitted :=
  h.induction (P := fun w => Joined d w.draft.ledger w.draft.emitted) (Joined.start d)
    fun _ _ hreached hs hw => hs.joined hreached.coherent hw

end Walk

end NetDiagram.Flow
