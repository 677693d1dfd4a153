import NetDiagram.Proofs.Emission
import NetDiagram.Proofs.Progress
import NetDiagram.Proofs.Spelling

/-!
# What was rendered before does not matter

The scope remembers the expressions of all that was rendered before, and the variables of the
layers that have statements.  `Scope.Reachable` are the scopes that any history of renderings and
statements leads to, in any order; a compilation only ever meets such scopes, also in the midst of
a rendering.  In all of them the arguments of an entity are rendered as the document spells them.

## Main statements

* `Scope.Reachable.spelled`: every expression of a reachable scope is the spelling of its entity.
* `Encounters.reachable`: every scope that a compilation meets is reachable.
* `Walk.Reached.spellsArgs`: the statements of a walk have the arguments that the document spells.
-/

namespace NetDiagram.Flow

variable {d : Document}

/-! ## Histories of a scope -/

/-- The scopes that a history leads to: renderings that succeed, whatever was rendered and for
whom, uses of import groups, and layers that get their statements. -/
inductive Scope.Reachable (d : Document) : Scope → Prop
  | empty : Reachable d {}
  | touch {s : Scope} (before : Reachable d s) (source : String) : Reachable d (s.touch source)
  | render {s s' : Scope} {trail : List NodeId} {owner : Entity} {piece : Piece}
      {texts : List String} (before : Reachable d s)
      (run : piece.run d trail owner s = .ok (texts, s')) : Reachable d s'
  | materialize {s : Scope} {l : Layer} (before : Reachable d s)
      (get : d.get? l.id = some (.layer l)) (mode : l.mode ≠ .ca) :
      Reachable d (s.bind l.id l.var)

/-- Every expression of a reachable scope is the spelling of its entity. -/
theorem Scope.Reachable.spelled {s : Scope} (h : s.Reachable d) : s.Spelled d := by
  induction h with
  | empty => exact Scope.spelled_empty d
  | touch _ source ih => exact ih.congr fun _ => rfl
  | render _ hrun ih => exact ((Renders.of_run hrun).spells ih).2
  | materialize _ hget hmode ih => exact ih.bind_layer hget hmode

lemma Scope.Reachable.renders {s s' : Scope} {trail : List NodeId} {owner : Entity}
    {piece : Piece} {texts : List String} (h : s.Reachable d)
    (hr : Renders d trail owner piece s texts s') : s'.Reachable d :=
  h.render hr.run

lemma Walk.Reached.scope_reachable {w : Walk} (h : Walk.Reached d w) :
    w.draft.scope.Reachable d := by
  refine h.induction_draft (P := fun t => t.scope.Reachable d) .empty fun t t' hstep ht => ?_
  cases hstep with
  | idle ledger => exact ht
  | layer hget hmode hr => exact ((ht.touch layerSource).renders hr).materialize hget hmode
  | model hget _ hr => exact (ht.touch modelSource).renders hr

lemma Run.Starts.reachable {r r' : Run} (h : Run.Starts d r r') (hr : r.scope.Reachable d) :
    r'.scope.Reachable d := by
  cases h with
  | items _ => exact hr
  | args _ hfirst => exact hr.renders hfirst
  | reference _ => exact hr
  | moreItems _ hfirst => exact hr.renders hfirst
  | moreLiterals _ => exact hr
  | call _ _ _ _ => exact hr.touch _

/-- **Reachable scopes.**  Every scope that a compilation meets is reachable. -/
theorem Encounters.reachable {r : Run} (h : Encounters d r) : r.scope.Reachable d := by
  obtain ⟨-, w, e, s, hw, hb, hstarts⟩ := h
  obtain ⟨source, rfl⟩ := hb.exists_touch
  induction hstarts with
  | refl => exact hw.scope_reachable.touch source
  | tail _ hstart ih => exact hstart.reachable ih

/-! ## Statements -/

/-- The statement has the arguments of the entity of the id as the document spells them. -/
def SpelledStatement (d : Document) (id : NodeId) (st : Statement) : Prop :=
  ∃ e, d.get? id = some e ∧ SpellsArgs d e.args st.args

/-- The arguments of every statement of a draft are those that the document spells. -/
lemma Walk.Reached.statements_spelled {w : Walk} (h : Walk.Reached d w) :
    List.Forall₂ (SpelledStatement d) w.draft.emitted w.draft.statements := by
  -- The scope goes along, for the expressions that a new statement finds in it.
  suffices w.draft.scope.Spelled d ∧
      List.Forall₂ (SpelledStatement d) w.draft.emitted w.draft.statements from this.2
  refine h.induction_draft (P := fun t => t.scope.Spelled d ∧
    List.Forall₂ (SpelledStatement d) t.emitted t.statements)
    ⟨Scope.spelled_empty d, .nil⟩ fun t t' hstep ht => ?_
  obtain ⟨hscope, hall⟩ := ht
  cases hstep with
  | idle ledger => exact ⟨hscope, hall⟩
  | layer hget hmode hr =>
    obtain ⟨htexts, hs⟩ := hr.spells (hscope.congr fun _ => rfl)
    exact ⟨hs.bind_layer hget hmode, List.rel_append hall (.cons ⟨_, hget, _, htexts, rfl⟩ .nil)⟩
  | model hget _ hr =>
    obtain ⟨htexts, hs⟩ := hr.spells (hscope.congr fun _ => rfl)
    exact ⟨hs, List.rel_append hall (.cons ⟨_, hget, _, htexts, rfl⟩ .nil)⟩

lemma Walk.Reached.spellsArgs {w : Walk} {nodes : List Entity} (h : Walk.Reached d w)
    (hnodes : w.draft.Transcribes d nodes) {i : Nat} {e : Entity} {st : Statement}
    (he : nodes[i]? = some e) (hst : w.draft.statements[i]? = some st) :
    SpellsArgs d e.args st.args := by
  have hall := h.statements_spelled
  rw [hnodes.emitted, List.forall₂_map_left_iff] at hall
  obtain ⟨hi, rfl⟩ := List.getElem?_eq_some_iff.1 he
  obtain ⟨hi', rfl⟩ := List.getElem?_eq_some_iff.1 hst
  obtain ⟨e', hget, hspells⟩ := hall.get hi hi'
  have hnode := hnodes.transcript.get?_of_mem (List.getElem_mem hi)
  obtain rfl : nodes[i] = e' := Option.some.inj (hnode.symm.trans hget)
  exact hspells

lemma exists_spelled_emission {c : Compilation} (h : compile d = .ok c) :
    ∃ nodes, Emission d nodes c ∧ ∀ (i : Nat) (e : Entity) (st : Statement),
      nodes[i]? = some e → c.statements[i]? = some st → SpellsArgs d e.args st.args := by
  obtain ⟨t, hreached, rfl⟩ := exists_reached_of_compile h
  obtain ⟨nodes, hnodes⟩ := hreached.transcribes
  exact ⟨nodes, hnodes.emission hreached.joined.nodup,
    fun _ _ _ he hst => hreached.spellsArgs hnodes he hst⟩

/-- **Transparency.**  Every scope that a compilation meets is reachable.  In a reachable scope,
whatever its history, the arguments of an entity that can be rendered have exactly one spelling,
and it is the text that is rendered.  So every statement of a compilation has the one text that
the document gives to the arguments of its node. -/
theorem rendering_transparent (d : Document) :
    (∀ r, Encounters d r → r.scope.Reachable d) ∧
    (∀ s : Scope, s.Reachable d → ∀ (trail : List NodeId) (owner : Entity) (texts : List String)
      (s' : Scope), (renderArgs d trail owner owner.args).run s = .ok (texts, s') →
        ∀ text, SpellsArgs d owner.args text ↔ text = ", ".intercalate texts) ∧
    ∀ c, compile d = .ok c → ∃ nodes, Emission d nodes c ∧
      ∀ (i : Nat) (e : Entity) (st : Statement), nodes[i]? = some e →
        c.statements[i]? = some st → ∀ text, SpellsArgs d e.args text ↔ text = st.args := by
  refine ⟨fun r hr => hr.reachable, fun s hs trail owner texts s' hrun text => ?_,
    fun c hc => ?_⟩
  · have hr : Renders d trail owner (.args owner.args) s texts s' := .of_renderArgs hrun
    exact SpellsArgs.iff_eq (hr.spells hs.spelled).1 text
  · obtain ⟨nodes, hnodes, hall⟩ := exists_spelled_emission hc
    refine ⟨nodes, hnodes, fun i e st he hst text => ?_⟩
    obtain ⟨texts, htexts, hargs⟩ := hall i e st he hst
    rw [hargs]
    exact SpellsArgs.iff_eq htexts text

/-- A layer that refers to two layers and to what another statement has inside. -/
def sharingLayer : Layer where
  id := .ofText "c"
  var := "z"
  className := "Merge"
  args := [⟨"like", "a; b", .id⟩, ⟨"layer", "k", .id⟩, ⟨"init", "u", .id⟩]
  input := .single (.ofText "b")
  output := [.ofText "m"]

/-- A unit inside an inline layer inside two statements, the first of which refers to the layer of
the second before it is built. -/
def sharing : Document where
  entities :=
    [.placeholder { id := .ofText "p", name := "seed" },
    .unit
      { id := .ofText "u", className := "HeNormal", source := "initializers"
        args := [⟨"seed", "p", .id⟩] },
    .layer
      { id := .ofText "k", var := "k", className := "Dense", mode := .ca
        args := [⟨"units", "64", .num⟩, ⟨"init", "u", .id⟩] },
    .layer
      { id := .ofText "a", var := "x", className := "Input", entrance := true
        args := [⟨"name", "in", .str⟩], output := [.ofText "b", .ofText "m"] },
    .layer
      { id := .ofText "b", var := "y", className := "Wrapper", mode := .ac
        args := [⟨"layer", "k", .id⟩, ⟨"twin", "c", .id⟩]
        input := .single (.ofText "a"), output := [.ofText "c"] },
    .layer sharingLayer,
    .model
      { id := .ofText "m", var := "model"
        args := [⟨"inputs", "a", .id⟩, ⟨"outputs", "c", .id⟩] }]
  nodup := by decide +kernel

/-- The arguments of the layer, with all that they refer to. -/
def sharingArgs : String :=
  "like=[x, y], layer=layers.Dense(units=64, init=initializers.HeNormal(seed=self.seed)), " ++
    "init=initializers.HeNormal(seed=self.seed)"

/-- The statements of `sharing`. -/
def sharingStatements : List Statement :=
  [⟨"x", "layers", "Input", "name=\"in\"", none⟩,
    ⟨"y", "layers", "Wrapper",
      "layer=layers.Dense(units=64, init=initializers.HeNormal(seed=self.seed)), twin=z",
      some "x"⟩,
    ⟨"z", "layers", "Merge", sharingArgs, some "y"⟩,
    ⟨"model", "models", "Model", "inputs=x, outputs=z", none⟩]

/-- The statements of `sharing` have the arguments that it spells; the layer has the same ones if
nothing that it refers to is known. -/
theorem rendering_transparent_sharing :
    (∃ c, compile sharing = .ok c ∧ c.statements = sharingStatements ∧
      ∃ nodes, Emission sharing nodes c ∧
        ∀ (i : Nat) (e : Entity) (st : Statement), nodes[i]? = some e →
          c.statements[i]? = some st → ∀ text, SpellsArgs sharing e.args text ↔ text = st.args) ∧
    ∀ text, SpellsArgs sharing (Entity.layer sharingLayer).args text ↔ text = sharingArgs := by
  constructor
  · have hrun : (evaluate sharing 12 7).map (·.statements) = some sharingStatements := by
      decide +kernel
    obtain ⟨c, hc, hstatements⟩ := Option.map_eq_some_iff.1 hrun
    have hcompile : compile sharing = .ok c := compile_of_evaluate (by cbv) hc
    exact ⟨c, hcompile, hstatements, (rendering_transparent sharing).2.2 c hcompile⟩
  · have hrun : ((Piece.args sharingLayer.args).evaluate sharing 12 [] (.layer sharingLayer) {}).map
        (fun r => ", ".intercalate r.1) = some sharingArgs := by
      decide +kernel
    obtain ⟨⟨texts, s'⟩, hr, htexts⟩ := Option.map_eq_some_iff.1 hrun
    rw [← htexts]
    exact (rendering_transparent sharing).2.1 {} .empty [] (.layer sharingLayer) texts s'
      (Piece.renders_of_evaluate hr).run

end NetDiagram.Flow
