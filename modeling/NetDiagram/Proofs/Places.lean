import NetDiagram.Proofs.Findings
import NetDiagram.Proofs.ForwardReferences
import NetDiagram.Proofs.Resolution
import NetDiagram.Proofs.RunEffect
import NetDiagram.Proofs.TextOrder

/-!
# Findings point into the document

A fault or a notice holds the entities that it is about, and its diagnostic has labels at their
places.  They come from all parts of a compilation: from its checks, from the connections that are
followed, and from the arguments, at any depth.  This file shows that they are always entities of
the document, so that the labels stand at places that the document has.

## Main statements

* `Fault.marks_diagnostic`, `Notice.marks_diagnostic`: the labels are at the places of the entities
  of the finding, the first of which is the main one.
* `Fault.entities_subset`: the entities of a fault are entities of the document.
* `Notice.entities_subset`: so are those of the notices.
* `exists_element_of_parse`: the places of a document that is read are those of its declarations.
-/

namespace NetDiagram

/-! ## Labels -/

@[simp] lemma Entity.span_layer (l : Layer) : (Entity.layer l).span = l.span := rfl

@[simp] lemma Entity.span_model (m : Model) : (Entity.model m).span = m.span := rfl

/-- The places of the entities that have one.  The first entity is the main one. -/
def marksAt : List Entity → List (Span × Bool)
  | [] => []
  | e :: others =>
    (e.span.map (·, true)).toList ++ others.flatMap fun e => (e.span.map (·, false)).toList

lemma exists_span_of_mem_marksAt {es : List Entity} {mark : Span × Bool} (h : mark ∈ marksAt es) :
    ∃ e ∈ es, e.span = some mark.1 := by
  cases es with
  | nil => simp [marksAt] at h
  | cons e others =>
    rcases List.mem_append.1 h with hfirst | hothers
    · obtain ⟨span, hspan, rfl⟩ := Option.map_eq_some_iff.1 (Option.mem_toList.1 hfirst)
      exact ⟨e, List.mem_cons_self, hspan⟩
    · obtain ⟨e', he', hmark⟩ := List.mem_flatMap.1 hothers
      obtain ⟨span, hspan, rfl⟩ := Option.map_eq_some_iff.1 (Option.mem_toList.1 hmark)
      exact ⟨e', List.mem_cons_of_mem _ he', hspan⟩

lemma length_marksAt_le (es : List Entity) : (marksAt es).length ≤ es.length := by
  have hone : ∀ (e : Entity) (main : Bool), (e.span.map (·, main)).toList.length ≤ 1 := by
    intro e main
    cases e.span <;> simp
  -- Entities without a place have no mark, which is why this is not an equation.
  have hothers : ∀ others : List Entity,
      (others.flatMap fun e => (e.span.map (·, false)).toList).length ≤ others.length := by
    intro others
    induction others with
    | nil => simp
    | cons e rest ih =>
      have hfirst := hone e false
      simp only [List.flatMap_cons, List.length_append, List.length_cons]
      omega
  cases es with
  | nil => simp [marksAt]
  | cons e others =>
    have hfirst := hone e true
    have hrest := hothers others
    simp only [marksAt, List.length_append, List.length_cons]
    omega

lemma snd_of_mem_tail_marksAt {es : List Entity} {mark : Span × Bool}
    (h : mark ∈ (marksAt es).tail) : mark.2 = false := by
  cases es with
  | nil => simp [marksAt] at h
  | cons e others =>
    have hothers : mark ∈ others.flatMap fun e => (e.span.map (·, false)).toList := by
      cases hspan : e.span with
      | none =>
        rw [marksAt, hspan] at h
        exact List.mem_of_mem_tail h
      | some span => simpa [marksAt, hspan] using h
    obtain ⟨e', -, hmark⟩ := List.mem_flatMap.1 hothers
    obtain ⟨span, -, rfl⟩ := Option.map_eq_some_iff.1 (Option.mem_toList.1 hmark)
    rfl

namespace Diagnostic

/-- The places of the labels, and which of them are main ones. -/
def marks (x : Diagnostic) : List (Span × Bool) :=
  x.labels.map fun label => (label.span, label.primary)

@[simp] lemma marks_ofCode (code : Code) (message : String) :
    (ofCode code message).marks = [] := rfl

@[simp] lemma marks_mark (x : Diagnostic) (span : Option Span) (message : String) :
    (x.mark span message).marks = x.marks ++ (span.map (·, true)).toList := by
  cases span <;> simp [marks]

@[simp] lemma marks_alsoMark (x : Diagnostic) (span : Option Span) (message : String) :
    (x.alsoMark span message).marks = x.marks ++ (span.map (·, false)).toList := by
  cases span <;> simp [marks]

@[simp] lemma marks_hint (x : Diagnostic) (help : String) : (x.hint help).marks = x.marks := rfl

/-- The labels of a diagnostic stand at entities of the document.  There are at most two of them, at
most one is the main one, and it comes first. -/
structure PointsInto (d : Document) (x : Diagnostic) : Prop where
  place : ∀ label ∈ x.labels, ∃ e ∈ d.entities, e.span = some label.span
  atMostTwo : x.labels.length ≤ 2
  onePrimary : x.labels.countP (·.primary) ≤ 1
  primaryFirst : ∀ label ∈ x.labels.tail, label.primary = false

lemma countP_primary_le {labels : List Label} (h : ∀ label ∈ labels.tail, label.primary = false) :
    labels.countP (·.primary) ≤ 1 := by
  cases labels with
  | nil => simp
  | cons first rest =>
    have hrest : rest.countP (·.primary) = 0 := List.countP_eq_zero.2 fun label hlabel => by
      simp [h label hlabel]
    rw [List.countP_cons, hrest]
    split <;> simp

/-- A diagnostic with labels at one or two entities of the document. -/
lemma PointsInto.of_marks {d : Document} {x : Diagnostic} {es : List Entity}
    (h : x.marks = marksAt es) (hes : ∀ e ∈ es, e ∈ d.entities) (hlength : es.length ≤ 2) :
    x.PointsInto d := by
  have htail : ∀ label ∈ x.labels.tail, label.primary = false := by
    intro label hlabel
    have hmark : (label.span, label.primary) ∈ x.marks.tail := by
      rw [marks, ← List.map_tail]
      exact List.mem_map_of_mem hlabel
    exact snd_of_mem_tail_marksAt (h ▸ hmark)
  refine ⟨fun label hlabel => ?_, ?_, countP_primary_le htail, htail⟩
  · have hmark : (label.span, label.primary) ∈ x.marks := List.mem_map_of_mem hlabel
    obtain ⟨e, he, hspan⟩ := exists_span_of_mem_marksAt (h ▸ hmark)
    exact ⟨e, hes e he, hspan⟩
  · calc x.labels.length = (marksAt es).length := by rw [← h, marks, List.length_map]
      _ ≤ es.length := length_marksAt_le es
      _ ≤ 2 := hlength

end Diagnostic

namespace Flow

variable {d : Document}

/-! ## Faults -/

/-- The entities at which the labels of a fault stand, the main one first. -/
def Fault.entities : Fault → List Entity
  | noEntrance | noModel => []
  | cyclic e => [e]
  | danglingLink source _ => [.layer source]
  | linkToValue source target => [.layer source, target]
  | notAnInput source target => [.layer source, .layer target]
  | notARole source target => [.layer source, .model target]
  | inlineInFlow _ target => [.layer target]
  | missingRole m _ => [.model m]
  | missingArgument owner _ | danglingReference owner _ _ => [owner]
  | badReference owner _ target => [owner, target]
  | cyclicReference _ target => [target]

lemma Fault.marks_diagnostic (fault : Fault) :
    fault.diagnostic.marks = marksAt fault.entities := by
  cases fault <;>
    simp [diagnostic, connectionDiagnostic, referenceDiagnostic, entities, marksAt]

lemma Fault.length_entities_le (fault : Fault) : fault.entities.length ≤ 2 := by
  cases fault <;> simp [entities]

/-- The kinds of faults. -/
def faultCodes : List Code :=
  [.noEntrance, .noModel, .badConnection, .cyclicGraph, .inlineInFlow, .missingArgument,
    .unresolvedReference, .cyclicReference]

lemma Fault.code_mem (fault : Fault) : fault.code ∈ faultCodes := by
  cases fault <;> simp [code, faultCodes]

lemma Fault.severity_code (fault : Fault) : fault.code.severity = .error := by
  cases fault <;> rfl

/-- A run that fails by itself is about its owner, or about what the owner refers to. -/
lemma Run.Fails.entities_subset {r : Run} {fault : Fault} (h : r.Fails d fault)
    (howner : r.owner ∈ d.entities) : ∀ e ∈ fault.entities, e ∈ d.entities := by
  cases h with
  | unset _ => simpa [Fault.entities] using howner
  | dangling _ _ => simpa [Fault.entities] using howner
  | bad _ get _ => simpa [Fault.entities] using ⟨howner, Document.mem_of_get? get⟩
  | loop _ get _ _ => simpa [Fault.entities] using Document.mem_of_get? get

/-- A walk that stops is about the layer from which a connection is followed, about the target of
the connection, or about a statement. -/
lemma Walk.Stops.entities_subset {w : Walk} {fault : Fault} (h : w.Stops d fault)
    (hc : w.Coherent d) : ∀ e ∈ fault.entities, e ∈ d.entities := by
  cases h with
  | inlineEntrance mode =>
    have hentrance := Document.mem_entrances_iff.1 (hc.entrance_mem _ List.mem_cons_self)
    simpa [Fault.entities] using Document.mem_of_get? hentrance.1
  | dangling get =>
    have hsource := Document.mem_of_get? (hc.source_mem _ _ List.mem_cons_self).1
    simpa [Fault.entities] using hsource
  | value get =>
    have hsource := Document.mem_of_get? (hc.source_mem _ _ List.mem_cons_self).1
    simpa [Fault.entities] using ⟨hsource, Document.mem_of_get? get⟩
  | inlineTarget get mode => simpa [Fault.entities] using Document.mem_of_get? get
  | notAnInput get =>
    have hsource := Document.mem_of_get? (hc.source_mem _ _ List.mem_cons_self).1
    simpa [Fault.entities] using ⟨hsource, Document.mem_of_get? get⟩
  | missingRole get => simpa [Fault.entities] using Document.mem_of_get? get
  | notARole get =>
    have hsource := Document.mem_of_get? (hc.source_mem _ _ List.mem_cons_self).1
    simpa [Fault.entities] using ⟨hsource, Document.mem_of_get? get⟩
  -- Inside a statement the fault may be about an entity that is reached through references.
  | statement begins run =>
    obtain ⟨r, chain, -, hnested, hfails⟩ := exists_fails_of_run run
    exact hfails.entities_subset (hnested.owner_mem (begins.mem_entities hc))

/-- **Faults are about the document.** -/
theorem Fault.entities_subset {fault : Fault} (h : compile d = .error fault) :
    ∀ e ∈ fault.entities, e ∈ d.entities := by
  rcases exists_stops_of_compile h with hvalid | ⟨-, w, hw, hstops⟩
  · rcases fault_of_validate hvalid with rfl | rfl | ⟨e, he, rfl⟩
    · simp [entities]
    · simp [entities]
    · simpa [entities] using he
  · exact hstops.entities_subset hw.coherent

/-! ## Notices -/

/-- The entities at which the labels of a notice stand, the main one first. -/
def Notice.entities : Notice → List Entity
  | unusedLayer l => [.layer l]
  | unreleasedModel m _ => [.model m]
  | forwardReference owner _ l => [owner, .layer l]
  | coveredFile _ => []

lemma Notice.marks_diagnostic (notice : Notice) :
    notice.diagnostic.marks = marksAt notice.entities := by
  cases notice <;> simp [diagnostic, entities, marksAt]

lemma Notice.length_entities_le (notice : Notice) : notice.entities.length ≤ 2 := by
  cases notice <;> simp [entities]

/-- The kinds of notices about a document. -/
def noticeCodes : List Code :=
  [.unusedLayer, .unreleasedModel, .forwardReference]

lemma Notice.severity_code (notice : Notice) : notice.code.severity = .warning := by
  cases notice <;> rfl

/-- **Notices are about the document.**  They tell of layers that are not used, of models that are
not built, and of references; the owner of a reference is rendered with some statement. -/
theorem Notice.entities_subset {c : Compilation} (h : compile d = .ok c) {notice : Notice}
    (hn : notice ∈ c.notices) :
    notice.code ∈ noticeCodes ∧ ∀ e ∈ notice.entities, e ∈ d.entities := by
  obtain ⟨t, hreached, rfl⟩ := exists_reached_of_compile h
  simp only [Draft.finish, List.mem_append] at hn
  rcases hn with (hscope | hunused) | hunreleased
  -- A forward reference: its owner is rendered with a node, so it is in the document.
  · obtain ⟨before, id, e, -, hget, o, a, l, rfl, hl, ho, -⟩ := hreached.warns.sound notice hscope
    have howner := Document.mem_of_get? (ho.get?_eq (Document.mem_of_get? hget))
    refine ⟨by simp [code, noticeCodes], ?_⟩
    simpa [entities] using ⟨howner, Document.mem_of_get? hl.1⟩
  · obtain ⟨l, hl, rfl⟩ := List.mem_map.1 hunused
    have hlayer := Document.mem_layers_iff.1 (List.mem_of_mem_filter hl)
    refine ⟨by simp [code, noticeCodes], ?_⟩
    simpa [entities] using Document.mem_of_get? hlayer
  · obtain ⟨m, hm, rfl⟩ := List.mem_map.1 hunreleased
    have hmodel := Document.mem_models_iff.1 (List.mem_of_mem_filter hm)
    refine ⟨by simp [code, noticeCodes], ?_⟩
    simpa [entities] using Document.mem_of_get? hmodel

/-! ## Places of a text -/

lemma exists_mem_of_forall₂ {α β : Type} {R : α → β → Prop} {xs : List α} {ys : List β}
    (h : List.Forall₂ R xs ys) {y : β} (hy : y ∈ ys) : ∃ x ∈ xs, R x y := by
  obtain ⟨i, hi, rfl⟩ := List.getElem_of_mem hy
  have hi' : i < xs.length := h.length_eq ▸ hi
  exact ⟨xs[i], List.getElem_mem hi', h.get hi' hi⟩

lemma exists_element_of_parse {source : String} (h : Document.parse source = .ok d) :
    ∃ node, Toml.parse source = .ok node ∧
      ∀ e ∈ d.entities, ∃ x ∈ Declaration.elements node, x.Declares e := by
  unfold Document.parse readText at h
  cases hparse : Toml.parse source with
  | error err => simp [hparse] at h
  | ok node =>
    obtain ⟨span, kind, entries, rfl⟩ := exists_table_of_parse hparse
    cases hread : Declaration.entities (.table span kind entries) with
    | error misfit => simp [hparse, hread] at h
    | ok es =>
      simp only [hparse, hread] at h
      refine ⟨_, rfl, fun e he => ?_⟩
      rcases Document.ofDeclarations_cases es with ⟨d', hd', hentities⟩ | ⟨_, _, _, -, herror⟩
      · obtain rfl : d' = d := Except.ok.inj (hd'.symm.trans h)
        -- Sorting by the places in the text loses no declaration.
        have hmem : e ∈ es := (Document.inTextOrder_perm es).mem_iff.1 (hentities ▸ he)
        exact exists_mem_of_forall₂ (Declaration.forall₂_elements hread) hmem
      · simp [herror] at h

/-! ## Compilations -/

/-- What a compilation reports: the fault, or the notices. -/
def reports (d : Document) : List Diagnostic :=
  match compile d with
  | .error fault => [fault.diagnostic]
  | .ok c => c.notices.map Notice.diagnostic

lemma Fault.pointsInto {fault : Fault} (h : compile d = .error fault) :
    fault.diagnostic.PointsInto d :=
  .of_marks fault.marks_diagnostic (entities_subset h) fault.length_entities_le

lemma Notice.pointsInto {c : Compilation} (h : compile d = .ok c) {notice : Notice}
    (hn : notice ∈ c.notices) : notice.diagnostic.PointsInto d :=
  .of_marks notice.marks_diagnostic (entities_subset h hn).2 notice.length_entities_le

lemma pointsInto_of_mem_reports {x : Diagnostic} (h : x ∈ reports d) : x.PointsInto d := by
  unfold reports at h
  split at h
  · rename_i fault hfault
    obtain rfl := List.mem_singleton.1 h
    exact Fault.pointsInto hfault
  · rename_i c hc
    obtain ⟨notice, hn, rfl⟩ := List.mem_map.1 h
    exact Notice.pointsInto hc hn

/-- **Findings point into the document.**  The diagnostic of a compilation that fails is an error,
those of a compilation that succeeds are warnings, and their codes are the ones given here.  Their
labels stand at places of entities of the document; there are at most two of them, at most one is
the main one, and it comes first.  So without places there are no labels, and the labels for a
document that is read stand at declarations of the text. -/
theorem findings_point_into_document (d : Document) :
    (∀ fault, compile d = .error fault →
      fault.diagnostic.severity = .error ∧
      fault.diagnostic.code.map Code.name ∈
        [some "E100", some "E101", some "E200", some "E201", some "E202", some "E300", some "E301",
          some "E302"] ∧
      fault.diagnostic.PointsInto d) ∧
    (∀ c, compile d = .ok c → ∀ notice ∈ c.notices,
      notice.diagnostic.severity = .warning ∧
      notice.diagnostic.code.map Code.name ∈ [some "W001", some "W002", some "W004"] ∧
      notice.diagnostic.PointsInto d) ∧
    ((∀ e ∈ d.entities, e.span = none) → ∀ x ∈ reports d, x.labels = []) ∧
    ∀ source, Document.parse source = .ok d → ∃ node, Toml.parse source = .ok node ∧
      ∀ x ∈ reports d, ∀ label ∈ x.labels,
        ∃ element ∈ Declaration.elements node, element.value.span = label.span := by
  refine ⟨fun fault h => ⟨?_, ?_, Fault.pointsInto h⟩,
    fun c h notice hn => ⟨?_, ?_, Notice.pointsInto h hn⟩, fun hnone x hx => ?_,
    fun source hd => ?_⟩
  · rw [fault.severity_diagnostic, fault.severity_code]
  · rw [Fault.code_diagnostic]
    exact List.mem_map_of_mem (f := fun c => some (Code.name c)) fault.code_mem
  · rw [notice.severity_diagnostic, notice.severity_code]
  · rw [Notice.code_diagnostic]
    exact List.mem_map_of_mem (f := fun c => some (Code.name c)) (Notice.entities_subset h hn).1
  · refine List.eq_nil_iff_forall_not_mem.2 fun label hlabel => ?_
    obtain ⟨e, he, hspan⟩ := (pointsInto_of_mem_reports hx).place label hlabel
    simp [hnone e he] at hspan
  · obtain ⟨node, hnode, hall⟩ := exists_element_of_parse hd
    refine ⟨node, hnode, fun x hx label hlabel => ?_⟩
    obtain ⟨e, he, hspan⟩ := (pointsInto_of_mem_reports hx).place label hlabel
    obtain ⟨element, helement, hdeclares⟩ := hall e he
    exact ⟨element, helement, Option.some.inj (hdeclares.span.symm.trans hspan)⟩

/-- An entrance that has a place, and refers to a model. -/
def strayReader : Layer where
  id := .ofText "a"
  var := "x"
  className := "Input"
  args := [⟨"like", "m", .id⟩]
  entrance := true
  span := some (.ofRange 0 40)

/-- A model that has a place. -/
def placedModel : Model where
  id := .ofText "m"
  var := "model"
  span := some (.ofRange 41 60)

/-- A layer that refers to a model. -/
def misread : Document where
  entities := [.layer strayReader, .model placedModel]
  nodup := by decide +kernel

lemma compile_misread :
    compile misread =
      .error (.badReference (.layer strayReader) ⟨"like", "m", .id⟩ (.model placedModel)) := by
  have hfirst : misread.entrances = [strayReader] := by cbv
  refine compile_of_breaks_entrance (by cbv) hfirst (by decide) ?_
  refine .of_starts ?_ (.items (by decide +kernel))
  refine .of_starts ?_ (.reference rfl)
  exact (Run.Fails.bad rfl (by cbv) rfl).breaks

/-- The theorem at a fault with two labels, at warnings for a document without places, and at the
one warning for a text. -/
theorem findings_point_into_misread :
    (∃ fault, compile misread = .error fault ∧
      fault.diagnostic.marks = [(.ofRange 0 40, true), (.ofRange 41 60, false)] ∧
      fault.diagnostic.PointsInto misread) ∧
    (∃ c, compile remnants = .ok c ∧ c.notices.length = 5 ∧
      (∀ notice ∈ c.notices, notice.diagnostic.severity = .warning ∧
        notice.diagnostic.code.map Code.name ∈ [some "W001", some "W002", some "W004"]) ∧
      ∀ x ∈ reports remnants, x.labels = []) ∧
    ∃ d node, Document.parse Command.smallText = .ok d ∧
      Toml.parse Command.smallText = .ok node ∧
      (reports d).map (fun x => x.labels.length) = [1] ∧
      ∀ x ∈ reports d, ∀ label ∈ x.labels,
        ∃ element ∈ Declaration.elements node, element.value.span = label.span := by
  refine ⟨⟨_, compile_misread, rfl,
    ((findings_point_into_document misread).1 _ compile_misread).2.2⟩,
    ⟨_, compile_remnants, rfl, fun notice hn => ?_, ?_⟩, ?_⟩
  · have hall := (findings_point_into_document remnants).2.1 _ compile_remnants notice hn
    exact ⟨hall.1, hall.2.1⟩
  · have hnone : ∀ e ∈ remnants.entities, e.span = none := by decide +kernel
    exact (findings_point_into_document remnants).2.2.1 hnone
  · obtain ⟨d, c, hd, hc, hlabels⟩ := Command.exists_compile_smallText
    obtain ⟨node, hnode, hall⟩ := (findings_point_into_document d).2.2.2 _ hd
    refine ⟨d, node, hd, hnode, ?_, hall⟩
    rw [reports, hc]
    simpa using hlabels

end Flow

end NetDiagram
