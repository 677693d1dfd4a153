import NetDiagram.Proofs.Findings
import NetDiagram.Proofs.Transparency

/-!
# Values that have still to be given

The mark `!REQ` stands for a value that has still to be given, and an argument with the mark must
not be rendered.  Whether an argument is unset is found on its raw text: the whole text is the
mark, blanks at its ends aside, or one of the items is exactly the mark.  Rendering, however, trims
every item.  So there is a gap: an item of a longer list that is the mark between blanks does not
make its argument unset, and the mark reaches the generated text.

This file shows that there is no other gap, however deep the argument stands in calls within
calls, and that an unset argument always stops the compilation.

## Main statements

* `Argument.blanks_of_set`: the items of a set argument that are the mark only after trimming.
* `Spells.args_of_renderedWith`: with a statement, all that is written inside it has a spelling.
-/

namespace NetDiagram

/-! ## Items and the whole text -/

lemma Text.eq_of_segments_eq_singleton {p : Char → Bool} {cs piece : List Char}
    (h : segments p cs = [piece]) : piece = cs := by
  induction cs generalizing piece with
  | nil => simpa [segments] using h.symm
  | cons c cs ih =>
    rw [segments] at h
    split at h
    · exact absurd (List.cons.inj h).2 (segments_ne_nil p cs)
    · split at h
      · rename_i hnil
        exact absurd hnil (segments_ne_nil p cs)
      · rename_i first rest hsegments
        obtain ⟨rfl, rfl⟩ := List.cons.inj h
        rw [ih hsegments]

namespace Argument

variable {a : Argument} {item : String}

lemma eq_raw_of_items_eq_singleton (h : a.items = [item]) : item = a.raw := by
  unfold items Text.splitAt at h
  obtain ⟨piece, hpiece, rfl⟩ := List.map_eq_singleton_iff.1 h
  rw [Text.eq_of_segments_eq_singleton hpiece, String.ofList_toList]

lemma isUnset_eq_false_iff :
    a.isUnset = false ↔ Text.trim a.raw ≠ requiredMark ∧ requiredMark ∉ a.items := by
  simp [isUnset]

/-- **The gap.**  An item of a set argument that is the mark after trimming has blanks around it,
and is not the only item. -/
theorem blanks_of_set (hset : a.isUnset = false) (hitem : item ∈ a.items)
    (hmark : Text.trim item = requiredMark) : Text.trim item ≠ item ∧ 1 < a.items.length := by
  obtain ⟨hraw, hitems⟩ := isUnset_eq_false_iff.1 hset
  constructor
  · intro heq
    rw [hmark] at heq
    exact hitems (heq ▸ hitem)
  · by_contra hlength
    have hone : a.items.length = 1 := by
      have hpos := List.length_pos_of_mem hitem
      omega
    obtain ⟨x, hx⟩ := List.length_eq_one_iff.1 hone
    have hitem' : item = x := by simpa [hx] using hitem
    exact hraw (eq_raw_of_items_eq_singleton hx ▸ hitem' ▸ hmark)

end Argument

namespace Flow

variable {d : Document}

/-! ## Rendered arguments -/

/-- The arguments of `o` are rendered with the statement of `e`: it is the entity of the statement,
or it is written inside the statement, in one of its arguments or deeper. -/
def RenderedWith (d : Document) (e o : Entity) : Prop :=
  o = e ∨ ∃ x, Inlines d e x ∧ d.get? x = some o

lemma Spells.args_of_renderedWith {e o : Entity} {texts : List String}
    (h : Spells d (.args e.args) texts) (ho : RenderedWith d e o) :
    ∃ texts', Spells d (.args o.args) texts' := by
  rcases ho with rfl | ⟨x, ⟨hinvolves, e', hget', hcall⟩, hget⟩
  · exact ⟨texts, h⟩
  · obtain rfl : e' = o := Option.some.inj (hget'.symm.trans hget)
    obtain ⟨b, text, hreference⟩ := h.of_involves hinvolves
    exact hreference.args_of_reference hget hcall

lemma Run.result_of_isUnset {trail : List NodeId} {o : Entity} {a : Argument}
    {rest : List Argument} {s : Scope} (hunset : a.isUnset = true) :
    Run.result d ⟨trail, o, .args (a :: rest), s⟩ = .error (.missingArgument o a) := by
  simp only [Run.result, Piece.run, run_renderArgs_cons, hunset, if_true]

/-- **Unset arguments are not rendered.**  If a document is compiled, then no argument that was
rendered is unset, so that an item can be the mark only with blanks around it and among other
items.  If the compilation of a document comes to an unset argument, of whatever entity and however
deep, then it fails for that argument, with code `E300`. -/
theorem unset_never_rendered (d : Document) :
    (∀ c, compile d = .ok c → ∃ nodes, Emission d nodes c ∧
      ∀ e ∈ nodes, ∀ o, RenderedWith d e o → ∀ a ∈ o.args, a.isUnset = false ∧
        ∀ item ∈ a.items, Text.trim item = Argument.requiredMark →
          Text.trim item ≠ item ∧ 1 < a.items.length) ∧
    ∀ (trail : List NodeId) (o : Entity) (a : Argument) (rest : List Argument) (s : Scope),
      Encounters d ⟨trail, o, .args (a :: rest), s⟩ → a.isUnset = true →
        compile d = .error (.missingArgument o a) ∧
          (Fault.missingArgument o a).diagnostic.code.map Code.name = some "E300" := by
  refine ⟨fun c hc => ?_, fun trail o a rest s hencounters hunset => ?_⟩
  · obtain ⟨nodes, hnodes, hall⟩ := exists_spelled_emission hc
    refine ⟨nodes, hnodes, fun e he o ho a ha => ?_⟩
    obtain ⟨i, hi⟩ := List.mem_iff_getElem?.1 he
    obtain ⟨hlt, -⟩ := List.getElem?_eq_some_iff.1 hi
    have hst := List.getElem?_eq_getElem (hnodes.length_eq ▸ hlt)
    obtain ⟨texts, htexts, -⟩ := hall i e _ hi hst
    obtain ⟨texts', hargs⟩ := htexts.args_of_renderedWith ho
    have hset := hargs.isUnset_eq_false ha
    exact ⟨hset, fun item hitem hmark => Argument.blanks_of_set hset hitem hmark⟩
  · refine ⟨hencounters.compile_eq_error (Run.result_of_isUnset hunset), ?_⟩
    rw [Fault.code_diagnostic]
    rfl

/-- An entrance with a list of two sizes, the second of which has still to be given. -/
def paddedEntrance : Layer where
  id := .ofText "a"
  var := "x"
  className := "Input"
  args := [⟨"dims", "1; !REQ", .num⟩]
  entrance := true
  output := [.ofText "m"]

/-- A document with a mark after a blank. -/
def padded : Document where
  entities :=
    [.layer paddedEntrance,
    .model
      { id := .ofText "m", var := "model"
        args := [⟨"inputs", "a", .id⟩, ⟨"outputs", "a", .id⟩] }]
  nodup := by decide +kernel

/-- The statements of `padded`. -/
def paddedStatements : List Statement :=
  [⟨"x", "layers", "Input", "dims=[1, !REQ]", none⟩,
    ⟨"model", "models", "Model", "inputs=x, outputs=x", none⟩]

lemma compile_padded : ∃ c, compile padded = .ok c ∧ c.statements = paddedStatements := by
  have hrun : (evaluate padded 6 3).map (·.statements) = some paddedStatements := by
    decide +kernel
  obtain ⟨c, hc, hstatements⟩ := Option.map_eq_some_iff.1 hrun
  exact ⟨c, compile_of_evaluate (by cbv) hc, hstatements⟩

/-- **A mark is rendered.**  `padded` is compiled, although an argument of an emitted layer has an
item that is the mark after trimming, and the mark is in the text of its statement. -/
theorem padded_mark_rendered :
    ∃ c nodes, compile padded = .ok c ∧ Emission padded nodes c ∧ .layer paddedEntrance ∈ nodes ∧
      (∃ a ∈ paddedEntrance.args, ∃ item ∈ a.items,
        Text.trim item = Argument.requiredMark) ∧
      c.statements = paddedStatements := by
  obtain ⟨c, hc, hstatements⟩ := compile_padded
  obtain ⟨t, hreached, rfl⟩ := exists_reached_of_compile hc
  obtain ⟨nodes, hnodes⟩ := hreached.transcribes
  have hentrance : paddedEntrance ∈ padded.entrances :=
    Document.mem_entrances_iff.2 ⟨rfl, rfl⟩
  refine ⟨_, nodes, hc, hnodes.emission hreached.joined.nodup,
    hnodes.entrance_mem hreached hentrance, ⟨_, List.mem_singleton.2 rfl, " !REQ", ?_, ?_⟩,
    hstatements⟩
  · decide +kernel
  · decide +kernel

/-- A unit with an unset argument. -/
def seedUnit : UnitSpec where
  id := .ofText "u"
  className := "HeNormal"
  source := "initializers"
  args := [⟨"seed", "1;!REQ", .num⟩]

/-- An entrance that has the unit inside. -/
def seededEntrance : Layer where
  id := .ofText "a"
  var := "x"
  className := "Input"
  args := [⟨"init", "u", .id⟩]
  entrance := true
  output := [.ofText "m"]

/-- A document with an unset argument inside a statement. -/
def seeded : Document where
  entities :=
    [.unit seedUnit, .layer seededEntrance,
    .model
      { id := .ofText "m", var := "model"
        args := [⟨"inputs", "a", .id⟩, ⟨"outputs", "a", .id⟩] }]
  nodup := by decide +kernel

lemma encounters_seeded :
    Encounters seeded
      ⟨[seedUnit.id], .unit seedUnit, .args seedUnit.args,
        (({} : Scope).touch layerSource).touch seedUnit.source⟩ := by
  have hstart : Walk.Reached seeded ⟨[seededEntrance], [], {}⟩ := Walk.Reached.start
  refine ⟨by cbv, _, .layer seededEntrance, _, hstart, .entrance (by decide) (by simp), ?_⟩
  refine .head (.items (by decide +kernel)) (.head (.reference rfl) (.head ?_ .refl))
  exact .call rfl rfl rfl (by simp)

/-- The theorem at `padded`, where it leaves the mark between blanks, and at `seeded`. -/
theorem unset_never_rendered_seeded :
    (∃ c, compile padded = .ok c ∧ ∃ nodes, Emission padded nodes c ∧
      ∀ e ∈ nodes, ∀ o, RenderedWith padded e o → ∀ a ∈ o.args, a.isUnset = false ∧
        ∀ item ∈ a.items, Text.trim item = Argument.requiredMark →
          Text.trim item ≠ item ∧ 1 < a.items.length) ∧
    compile seeded = .error (.missingArgument (.unit seedUnit) ⟨"seed", "1;!REQ", .num⟩) := by
  constructor
  · obtain ⟨c, hc, -⟩ := compile_padded
    exact ⟨c, hc, (unset_never_rendered padded).1 c hc⟩
  · exact ((unset_never_rendered seeded).2 _ _ _ _ _ encounters_seeded (by decide +kernel)).1

end Flow

end NetDiagram
