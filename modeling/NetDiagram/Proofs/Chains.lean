import NetDiagram.Proofs.Failures
import NetDiagram.Proofs.Findings

/-!
# The chain that is reported

A rendering that comes back to a call that is being written stops, and reports the calls that are
being written, in their order, and the one that it came back to.  This file shows that what is
reported is a chain of references: it leads from the statement through the calls to the target,
and from the target to itself.

The trail of calls is handed down from call to call.  It might as well be one list for the whole
rendering, to which a call is added when it begins and from which it is removed when it is done;
`Threaded` are the runs with such a list.  They end in the same way, whatever was rendered
and finished before, and they leave the list as it was.

## Main statements

* `threaded_iff`: one list for the whole rendering does the same as a trail for each call.
* `refers_of_isChain`: a chain of calls that comes back is a cycle of references.
* `Run.Nested.comesBack`: a loop is reported with the calls that lead to it.
-/

namespace NetDiagram.Flow

variable {d : Document}

/-! ## One list of calls -/

/-- The text comes before the others. -/
def prepend {α : Type} (text : String) (out : List String × α) : List String × α :=
  (text :: out.1, out.2)

/-- The runs of a piece that keep the calls that are being written in one list.  Everything that is
rendered adds to this list and removes from it; the result has the list as it is afterwards. -/
inductive Threaded (d : Document) : Entity → Piece → Scope → List NodeId →
    Except Fault (List String × Scope × List NodeId) → Prop
  | noArgs {owner : Entity} {s : Scope} {active : List NodeId} :
      Threaded d owner (.args []) s active (.ok ([], s, active))
  | unset {owner : Entity} {a : Argument} {rest : List Argument} {s : Scope}
      {active : List NodeId} (unset : a.isUnset = true) :
      Threaded d owner (.args (a :: rest)) s active (.error (.missingArgument owner a))
  | argFails {owner : Entity} {a : Argument} {rest : List Argument} {s : Scope}
      {active : List NodeId} {fault : Fault} (set : a.isUnset = false)
      (first : Threaded d owner (.items a (a.items.map Text.trim)) s active (.error fault)) :
      Threaded d owner (.args (a :: rest)) s active (.error fault)
  | arg {owner : Entity} {a : Argument} {rest : List Argument} {s s₁ : Scope}
      {active active₁ : List NodeId} {items : List String}
      {out : Except Fault (List String × Scope × List NodeId)} (set : a.isUnset = false)
      (first : Threaded d owner (.items a (a.items.map Text.trim)) s active
        (.ok (items, s₁, active₁)))
      (others : Threaded d owner (.args rest) s₁ active₁ out) :
      Threaded d owner (.args (a :: rest)) s active
        (out.map (prepend (a.name ++ "=" ++ bracket items)))
  | noItems {owner : Entity} {a : Argument} {s : Scope} {active : List NodeId} :
      Threaded d owner (.items a []) s active (.ok ([], s, active))
  | literal {owner : Entity} {a : Argument} {item : String} {rest : List String} {s : Scope}
      {active : List NodeId} {out : Except Fault (List String × Scope × List NodeId)}
      (kind : a.kind ≠ .id) (others : Threaded d owner (.items a rest) s active out) :
      Threaded d owner (.items a (item :: rest)) s active
        (out.map (prepend (literalText a.kind item)))
  | itemFails {owner : Entity} {a : Argument} {item : String} {rest : List String} {s : Scope}
      {active : List NodeId} {fault : Fault} (kind : a.kind = .id)
      (first : Threaded d owner (.reference a (.ofText item)) s active (.error fault)) :
      Threaded d owner (.items a (item :: rest)) s active (.error fault)
  | item {owner : Entity} {a : Argument} {item text : String} {rest : List String}
      {s s₁ : Scope} {active active₁ : List NodeId}
      {out : Except Fault (List String × Scope × List NodeId)} (kind : a.kind = .id)
      (first : Threaded d owner (.reference a (.ofText item)) s active (.ok ([text], s₁, active₁)))
      (others : Threaded d owner (.items a rest) s₁ active₁ out) :
      Threaded d owner (.items a (item :: rest)) s active (out.map (prepend text))
  | known {owner : Entity} {a : Argument} {id : NodeId} {s : Scope} {active : List NodeId}
      {text : String} (name : s.name? id = some text) :
      Threaded d owner (.reference a id) s active (.ok ([text], s, active))
  | dangling {owner : Entity} {a : Argument} {id : NodeId} {s : Scope} {active : List NodeId}
      (name : s.name? id = none) (get : d.get? id = none) :
      Threaded d owner (.reference a id) s active (.error (.danglingReference owner a id))
  | bad {owner target : Entity} {a : Argument} {id : NodeId} {s : Scope} {active : List NodeId}
      (name : s.name? id = none) (get : d.get? id = some target)
      (value : target.isReferable = false) :
      Threaded d owner (.reference a id) s active (.error (.badReference owner a target))
  | placeholder {owner : Entity} {a : Argument} {id : NodeId} {s : Scope} {active : List NodeId}
      {p : Placeholder} (name : s.name? id = none) (get : d.get? id = some (.placeholder p)) :
      Threaded d owner (.reference a id) s active
        (.ok (["self." ++ p.name], (s.require p.name).bind id ("self." ++ p.name), active))
  | forward {owner : Entity} {a : Argument} {id : NodeId} {s : Scope} {active : List NodeId}
      {l : Layer} (name : s.name? id = none) (get : d.get? id = some (.layer l))
      (mode : l.mode.isMaterialized = true) :
      Threaded d owner (.reference a id) s active
        (.ok ([l.var], s.note (.forwardReference owner a l), active))
  /-- A call that is being written: the calls of the list are reported. -/
  | loop {owner target : Entity} {a : Argument} {id : NodeId} {s : Scope} {active : List NodeId}
      (name : s.name? id = none) (get : d.get? id = some target)
      (call : (inlineCall? target).isSome) (old : id ∈ active) :
      Threaded d owner (.reference a id) s active
        (.error (.cyclicReference (active.filterMap d.get?) target))
  /-- A call is added at the end of the list, and removed when its arguments are done. -/
  | call {owner target : Entity} {a : Argument} {id : NodeId} {s : Scope} {active : List NodeId}
      {source className : String} {out : Except Fault (List String × Scope × List NodeId)}
      (name : s.name? id = none) (get : d.get? id = some target)
      (inline : inlineCall? target = some (source, className)) (new : id ∉ active)
      (inner : Threaded d target (.args target.args) (s.touch source) (active ++ [id]) out) :
      Threaded d owner (.reference a id) s active
        (out.map fun (args, s₁, active₁) => ([callText source className args],
          s₁.inline id (callText source className args), active₁.erase id))

/-- The result of a run, with the list as it was. -/
def keeping (active : List NodeId) (out : Except Fault (List String × Scope)) :
    Except Fault (List String × Scope × List NodeId) :=
  out.map fun (texts, s) => (texts, s, active)

/-- The run ends with this outcome: it fails, or is done, with the trail as it was. -/
def Run.Ends (d : Document) (r : Run) : Except Fault (List String × Scope × List NodeId) → Prop
  | .error fault => r.Breaks d fault
  | .ok (texts, s, active) => Renders d r.trail r.owner r.piece r.scope texts s ∧ active = r.trail

lemma Run.ends_iff {r : Run} {out : Except Fault (List String × Scope × List NodeId)} :
    r.Ends d out ↔ out = keeping r.trail (r.result d) := by
  cases out with
  | error fault =>
    rw [Ends, ← result_eq_error_iff]
    cases r.result d <;> simp [keeping, Except.map, eq_comm]
  | ok done =>
    obtain ⟨texts, s, active⟩ := done
    rw [Ends, renders_iff, ← Run.result]
    cases r.result d <;> simp [keeping, Except.map, Prod.ext_iff, and_assoc, eq_comm]

lemma erase_append_singleton {active : List NodeId} {id : NodeId} (hnew : id ∉ active) :
    (active ++ [id]).erase id = active := by
  rw [List.erase_append_right _ hnew, List.erase_cons_head, List.append_nil]

namespace Threaded

lemma ends {owner : Entity} {piece : Piece} {s : Scope} {active : List NodeId}
    {out : Except Fault (List String × Scope × List NodeId)}
    (h : Threaded d owner piece s active out) : Run.Ends d ⟨active, owner, piece, s⟩ out := by
  induction h with
  | noArgs => exact ⟨.noArgs, rfl⟩
  | unset unset => exact (Run.Fails.unset unset).breaks
  | argFails set _ ih => exact Run.Breaks.of_starts ih (.items set)
  | @arg _ _ _ _ _ _ _ _ out set _ _ ihfirst ihothers =>
    -- what was rendered before has left the list as it was
    obtain ⟨hfirst, rfl⟩ := ihfirst
    cases out with
    | error fault => exact Run.Breaks.of_starts ihothers (.args set hfirst)
    | ok done => exact ⟨.arg set hfirst ihothers.1, ihothers.2⟩
  | noItems => exact ⟨.noItems, rfl⟩
  | @literal _ _ _ _ _ _ out kind _ ih =>
    cases out with
    | error fault => exact Run.Breaks.of_starts ih (.moreLiterals kind)
    | ok done => exact ⟨.literal kind ih.1, ih.2⟩
  | itemFails kind _ ih => exact Run.Breaks.of_starts ih (.reference kind)
  | @item _ _ _ _ _ _ _ _ _ out kind _ _ ihfirst ihothers =>
    obtain ⟨hfirst, rfl⟩ := ihfirst
    cases out with
    | error fault => exact Run.Breaks.of_starts ihothers (.moreItems kind hfirst)
    | ok done => exact ⟨.item kind hfirst ihothers.1, ihothers.2⟩
  | known name => exact ⟨.known name, rfl⟩
  | dangling name get => exact (Run.Fails.dangling name get).breaks
  | bad name get value => exact (Run.Fails.bad name get value).breaks
  | placeholder name get => exact ⟨.placeholder name get, rfl⟩
  | forward name get mode => exact ⟨.forward name get mode, rfl⟩
  | loop name get call old => exact (Run.Fails.loop name get call old).breaks
  | @call _ _ _ _ _ _ _ _ out name get inline new _ ih =>
    cases out with
    | error fault => exact Run.Breaks.of_starts ih (.call name get inline new)
    | ok done =>
      obtain ⟨args, s₁, active₁⟩ := done
      obtain ⟨hinner, rfl⟩ := ih
      exact ⟨.call name get inline new hinner, erase_append_singleton new⟩

/-- What can be rendered can be rendered with one list, which is afterwards as it was. -/
lemma of_renders {trail : List NodeId} {owner : Entity} {piece : Piece} {s s' : Scope}
    {texts : List String} (h : Renders d trail owner piece s texts s') :
    Threaded d owner piece s trail (.ok (texts, s', trail)) := by
  induction h with
  | noArgs => exact .noArgs
  | arg set _ _ ihfirst ihothers => exact .arg set ihfirst ihothers
  | noItems => exact .noItems
  | literal kind _ ih => exact .literal kind ih
  | item kind _ _ ihfirst ihothers => exact .item kind ihfirst ihothers
  | known name => exact .known name
  | placeholder name get => exact .placeholder name get
  | forward name get mode => exact .forward name get mode
  | @call trail owner a id s _ _ _ _ _ name get inline new _ ih =>
    have hcall : Threaded d owner (.reference a id) s trail _ := .call name get inline new ih
    simpa [Except.map, erase_append_singleton new] using hcall

section Failing

variable {r r' : Run} {fault : Fault}

lemma of_fails (h : r.Fails d fault) :
    Threaded d r.owner r.piece r.scope r.trail (.error fault) := by
  cases h with
  | unset unset => exact .unset unset
  | dangling name get => exact .dangling name get
  | bad name get value => exact .bad name get value
  | loop name get call old => exact .loop name get call old

/-- A failure is passed on; what was rendered before it is done, and is not on the list. -/
lemma of_starts (hstart : Run.Starts d r r')
    (h : Threaded d r'.owner r'.piece r'.scope r'.trail (.error fault)) :
    Threaded d r.owner r.piece r.scope r.trail (.error fault) := by
  cases hstart with
  | items set => exact .argFails set h
  | args set first => exact .arg set (of_renders first) h
  | reference kind => exact .itemFails kind h
  | moreItems kind first => exact .item kind (of_renders first) h
  | moreLiterals kind => exact .literal kind h
  | call name get inline new => exact .call name get inline new h

lemma of_breaks (h : r.Breaks d fault) :
    Threaded d r.owner r.piece r.scope r.trail (.error fault) := by
  obtain ⟨r', hreaches, hfails⟩ := h
  induction hreaches using Relation.ReflTransGen.head_induction_on with
  | refl => exact of_fails hfails
  | head hstart _ ih => exact of_starts hstart ih

end Failing

end Threaded

/-- **One list does the same.**  Whatever the list is to begin with, a run with one list ends as
the run with that trail, and leaves the list as it was. -/
theorem threaded_iff {owner : Entity} {piece : Piece} {s : Scope} {active : List NodeId}
    {out : Except Fault (List String × Scope × List NodeId)} :
    Threaded d owner piece s active out ↔ out = keeping active (piece.run d active owner s) := by
  have hends : Run.Ends d ⟨active, owner, piece, s⟩ out ↔
      out = keeping active (piece.run d active owner s) := Run.ends_iff
  rw [← hends]
  refine ⟨Threaded.ends, fun h => ?_⟩
  cases out with
  | error fault => exact .of_breaks h
  | ok done =>
    obtain ⟨texts, s', active'⟩ := done
    obtain ⟨hrenders, rfl⟩ := h
    exact .of_renders hrenders

/-! ## Chains that come back -/

/-- References lead from the node through the calls of the chain, which are distinct, to the target,
and the target is one of them. -/
structure ComesBack (d : Document) (node : Entity) (chain : List Entity) (target : Entity) :
    Prop where
  nonempty : chain ≠ []
  distinct : (chain.map Entity.id).Nodup
  mem : ∀ e ∈ chain, e ∈ d.entities
  call : ∀ e ∈ chain, (inlineCall? e).isSome
  linked : (node :: (chain ++ [target])).IsChain Names
  target_mem : target ∈ chain

lemma refers_of_isChain {e e' : Entity} {between : List Entity}
    (hmem : ∀ x ∈ e :: between, x ∈ d.entities)
    (hcall : ∀ x ∈ e :: between, (inlineCall? x).isSome)
    (h : (e :: (between ++ [e'])).IsChain Names) :
    Relation.TransGen (Refers d) e.id e'.id := by
  have hget : d.get? e.id = some e := Document.get?_of_mem (hmem e List.mem_cons_self)
  have hinline := hcall e List.mem_cons_self
  induction between generalizing e with
  | nil =>
    have hnames : Names e e' := List.isChain_pair.1 h
    exact .single ⟨e, hget, hinline, hnames⟩
  | cons x rest ih =>
    rw [List.cons_append, List.isChain_cons_cons] at h
    have hx : x ∈ x :: rest := List.mem_cons_self
    have hrest := ih (fun y hy => hmem y (List.mem_cons_of_mem _ hy))
      (fun y hy => hcall y (List.mem_cons_of_mem _ hy)) h.2
      (Document.get?_of_mem (hmem x (List.mem_cons_of_mem _ hx)))
      (hcall x (List.mem_cons_of_mem _ hx))
    exact .head ⟨e, hget, hinline, h.1⟩ hrest

lemma ComesBack.onCycle {node target : Entity} {chain : List Entity}
    (h : ComesBack d node chain target) : Relation.TransGen (Refers d) target.id target.id := by
  obtain ⟨before, after, hchain⟩ := List.append_of_mem h.target_mem
  have hsub : ∀ x ∈ target :: after, x ∈ chain := fun x hx =>
    hchain ▸ List.mem_append_right before hx
  have hsuffix : target :: (after ++ [target]) <:+ node :: (chain ++ [target]) :=
    ⟨node :: before, by simp [hchain]⟩
  exact refers_of_isChain (fun x hx => h.mem x (hsub x hx)) (fun x hx => h.call x (hsub x hx))
    (h.linked.suffix hsuffix)

lemma Run.Nested.comesBack {r : Run} {node target : Entity} {chain reported : List Entity}
    (h : r.Nested d node chain) (hfails : r.Fails d (.cyclicReference reported target)) :
    reported = chain ∧ ComesBack d node chain target := by
  cases hfails with
  | loop name get call old =>
    have htarget := h.mem_chain get old
    exact ⟨h.filterMap_get?, List.ne_nil_of_mem htarget, h.nodup,
      fun e he => Document.mem_of_get? (h.get e he), h.call, h.names get, htarget⟩

/-! ## Compilations -/

lemma exists_begins_of_compile {reported : List Entity} {target : Entity}
    (h : compile d = .error (.cyclicReference reported target)) :
    ∃ w node s, Walk.Reached d w ∧ w.Begins d node s ∧
      (renderArgs d [] node node.args).run s = .error (.cyclicReference reported target) := by
  rcases exists_stops_of_compile h with hvalid | ⟨-, w, hw, hstops⟩
  · rcases fault_of_validate hvalid with hfault | hfault | ⟨e, -, hfault⟩ <;> cases hfault
  · cases hstops with
    | statement begins run => exact ⟨w, _, _, hw, begins, run⟩

/-- **The reported chain is real.**  One list of calls for a whole rendering does the same as a
trail for each call.  If a compilation fails with code `E302`, then it stops in the statement of a
node, and its message shows a chain of distinct units and inline layers of the document: the node
refers to the first of them, each refers to the next, and the last one to the target that is said
to be referred back to.  The target is one of the chain, so that it lies on a cycle of
references. -/
theorem reported_chain_real (d : Document) :
    (∀ owner piece s active out, Threaded d owner piece s active out ↔
      out = keeping active (piece.run d active owner s)) ∧
    ∀ fault, compile d = .error fault →
      fault.diagnostic.code.map Code.name = some "E302" →
        ∃ w node s chain target, Walk.Reached d w ∧ w.Begins d node s ∧
          w.next d = .error fault ∧
          fault.diagnostic.message =
            "argument chain " ++ " -> ".intercalate (chain.map fun e => ticked e.label) ++
              " refers back to " ++ ticked target.label ∧
          ComesBack d node chain target ∧
          Relation.TransGen (Refers d) target.id target.id := by
  refine ⟨fun owner piece s active out => threaded_iff, fun fault h hcode => ?_⟩
  obtain ⟨reported, target, rfl⟩ : ∃ reported target, fault = .cyclicReference reported target := by
    have hkind : fault.code = .cyclicReference := Fault.code_eq_iff.2 hcode
    cases fault with
    | cyclicReference reported target => exact ⟨reported, target, rfl⟩
    | _ => simp [Fault.code] at hkind
  obtain ⟨w, node, s, hw, hbegins, hrun⟩ := exists_begins_of_compile h
  obtain ⟨r, chain, -, hnested, hfails⟩ := exists_fails_of_run hrun
  obtain ⟨rfl, hback⟩ := hnested.comesBack hfails
  exact ⟨w, node, s, reported, target, hw, hbegins, hbegins.next_eq_error hrun,
    by simp [Fault.diagnostic], hback, hback.onCycle⟩

/-- A unit without arguments. -/
def zerosUnit : UnitSpec where
  id := .ofText "w"
  className := "Zeros"
  source := "initializers"

/-- Another one. -/
def onesUnit : UnitSpec where
  id := .ofText "v"
  className := "Ones"
  source := "initializers"

/-- A unit that refers to the first unit, and to an inline layer. -/
def loopedUnit : UnitSpec where
  id := .ofText "u"
  className := "HeNormal"
  source := "initializers"
  args := [⟨"layer", "w; k", .id⟩]

/-- An inline layer that refers to the second unit, and back to the third. -/
def loopedCall : Layer where
  id := .ofText "k"
  var := "k"
  className := "Dense"
  mode := .ca
  args := [⟨"seed", "v", .id⟩, ⟨"init", "u", .id⟩]

/-- An entrance that has the unit inside. -/
def loopedEntrance : Layer where
  id := .ofText "a"
  var := "x"
  className := "Input"
  args := [⟨"init", "w", .id⟩, ⟨"layer", "u", .id⟩]
  entrance := true
  output := [.ofText "m"]

/-- A unit and an inline layer that refer to each other, with other units that are rendered before
and between them. -/
def looped : Document where
  entities :=
    [.unit zerosUnit, .unit onesUnit, .unit loopedUnit, .layer loopedCall, .layer loopedEntrance,
    .model
      { id := .ofText "m", var := "model"
        args := [⟨"inputs", "a", .id⟩, ⟨"outputs", "a", .id⟩] }]
  nodup := by decide +kernel

lemma renders_plainUnit {trail : List NodeId} {owner : Entity} {a : Argument} {u : UnitSpec}
    {s : Scope} (hname : s.name? u.id = none) (hget : d.get? u.id = some (.unit u))
    (hargs : u.args = []) (hnew : u.id ∉ trail) :
    Renders d trail owner (.reference a u.id) s [callText u.source u.className []]
      ((s.touch u.source).inline u.id (callText u.source u.className [])) := by
  refine .call hname hget rfl hnew ?_
  rw [Entity.args, hargs]
  exact .noArgs

/-- The scope of `looped` when the first unit is done. -/
def zerosScope : Scope :=
  ((({} : Scope).touch layerSource).touch zerosUnit.source).inline zerosUnit.id
    (callText zerosUnit.source zerosUnit.className [])

/-- The rendering of the entrance comes back to the third unit. -/
lemma breaks_looped :
    Run.Breaks looped
      ⟨[], .layer loopedEntrance, .args loopedEntrance.args, ({} : Scope).touch layerSource⟩
      (.cyclicReference [.unit loopedUnit, .layer loopedCall] (.unit loopedUnit)) := by
  have hcall : Run.Breaks looped
      ⟨[loopedUnit.id, loopedCall.id], .layer loopedCall, .args loopedCall.args,
        (zerosScope.touch loopedUnit.source).touch layerSource⟩
      (.cyclicReference [.unit loopedUnit, .layer loopedCall] (.unit loopedUnit)) := by
    refine .of_starts ?_ (.args (by decide +kernel) (.item rfl
      (renders_plainUnit (u := onesUnit) rfl rfl rfl (by decide +kernel)) .noItems))
    refine .of_starts ?_ (.items (by decide +kernel))
    refine .of_starts ?_ (.reference rfl)
    exact (Run.Fails.loop rfl rfl rfl (by decide +kernel)).breaks
  have hunit : Run.Breaks looped
      ⟨[loopedUnit.id], .unit loopedUnit, .args loopedUnit.args,
        zerosScope.touch loopedUnit.source⟩
      (.cyclicReference [.unit loopedUnit, .layer loopedCall] (.unit loopedUnit)) := by
    refine .of_starts ?_ (.items (by decide +kernel))
    refine .of_starts ?_ (.moreItems rfl (.known rfl))
    refine .of_starts ?_ (.reference rfl)
    exact hcall.of_starts (.call rfl rfl rfl (by decide +kernel))
  refine .of_starts ?_ (.args (by decide +kernel) (.item rfl
    (renders_plainUnit (u := zerosUnit) rfl rfl rfl (by simp)) .noItems))
  refine .of_starts ?_ (.items (by decide +kernel))
  refine .of_starts ?_ (.reference rfl)
  exact hunit.of_starts (.call rfl rfl rfl (by simp))

lemma compile_looped :
    compile looped =
      .error (.cyclicReference [.unit loopedUnit, .layer loopedCall] (.unit loopedUnit)) := by
  have hfirst : looped.entrances = [loopedEntrance] := rfl
  exact compile_of_breaks_entrance (by cbv) hfirst (by decide) breaks_looped

/-- The theorem at `looped`, with the message. -/
theorem reported_chain_real_looped :
    ∃ fault, compile looped = .error fault ∧
      fault.diagnostic.message =
        "argument chain `initializers.HeNormal` -> `Dense:k` refers back to `initializers.HeNormal`" ∧
      ∃ w node s chain target, Walk.Reached looped w ∧ w.Begins looped node s ∧
        w.next looped = .error fault ∧
        fault.diagnostic.message =
          "argument chain " ++ " -> ".intercalate (chain.map fun e => ticked e.label) ++
            " refers back to " ++ ticked target.label ∧
        ComesBack looped node chain target ∧
        Relation.TransGen (Refers looped) target.id target.id :=
  ⟨_, compile_looped, by rfl, (reported_chain_real looped).2 _ compile_looped (by rfl)⟩

end NetDiagram.Flow
