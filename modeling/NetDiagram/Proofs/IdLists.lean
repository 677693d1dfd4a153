import NetDiagram.Proofs.Declarations

/-!
# Lists of ids as text

A list of ids is written as the texts of the ids with semicolons between them.  It is read by
cutting the text at the semicolons and trimming the pieces; pieces that are blank or `null` stand
for no id.  Writing and reading are separate functions, and not every list can be read back: an id
may itself be blank, be called `null` or have a semicolon inside.

What is read does have a text that reads the same (`NodeId.Listable`), so that the lists of a file
survive being stored as the text of an argument.

## Main statements

* `parseIdList_append`: a text is read piece by piece.
* `listable_of_mem_parseIdList` and `idList_ofIds`: what is read can be written, and what can be
  written is read back.
* `Declaration.nodeIds_array_eq_ok_iff`: an array is read element by element.
* `Declaration.idList_of_model`: the roles of a model are those of its declaration.
-/

namespace NetDiagram

/-! ## Cutting a text -/

namespace Text

/-- The pieces of a list are those of the library. -/
lemma segments_eq_splitOnP (p : Char → Bool) (cs : List Char) :
    segments p cs = cs.splitOnP p := by
  induction cs with
  | nil => rfl
  | cons c cs ih =>
    rw [segments, List.splitOnP_cons_eq_if_modifyHead, ih]
    cases hpieces : cs.splitOnP p with
    | nil => exact absurd hpieces (List.splitOnP_ne_nil p cs)
    | cons piece pieces => rfl

lemma not_of_mem_segments {p : Char → Bool} {cs piece : List Char} (h : piece ∈ segments p cs) :
    ∀ c ∈ piece, p c = false := by
  induction cs generalizing piece with
  | nil =>
    obtain rfl : piece = [] := by simpa [segments] using h
    simp
  | cons x cs ih =>
    rw [segments] at h
    split at h
    · rcases List.mem_cons.1 h with rfl | hrest
      · simp
      · exact ih hrest
    · rename_i hx
      split at h
      · rename_i hnil
        exact absurd hnil (segments_ne_nil p cs)
      · rename_i first rest hsegments
        rcases List.mem_cons.1 h with rfl | hrest
        · have hfirst := ih (hsegments ▸ List.mem_cons_self)
          exact List.forall_mem_cons.2 ⟨by simpa using hx, hfirst⟩
        · exact ih (hsegments ▸ List.mem_cons_of_mem _ hrest)

variable {separator : Char} {s item : String}

/-- A text that is put together at a separator is cut there again. -/
lemma splitAt_append (separator : Char) (s t : String) :
    splitAt separator (s ++ String.singleton separator ++ t) =
      splitAt separator s ++ splitAt separator t := by
  have hlist : (s ++ String.singleton separator ++ t).toList =
      s.toList ++ separator :: t.toList := by simp
  have hsep : (separator == separator) = true := by simp
  have hcut := List.splitOnP_append_cons (p := (· == separator)) s.toList t.toList hsep
  simp only [splitAt, segments_eq_splitOnP, hlist, hcut, List.map_append]

lemma splitAt_eq_singleton (h : separator ∉ s.toList) : splitAt separator s = [s] := by
  have hnone : ∀ c ∈ s.toList, (c == separator) = false := by
    intro c hc
    rw [beq_eq_false_iff_ne]
    rintro rfl
    exact h hc
  rw [splitAt, segments_eq_splitOnP, List.splitOnP_eq_singleton hnone, List.map_singleton,
    String.ofList_toList]

lemma not_mem_of_mem_splitAt (h : item ∈ splitAt separator s) : separator ∉ item.toList := by
  obtain ⟨piece, hpiece, rfl⟩ := List.mem_map.1 h
  intro hmem
  rw [String.toList_ofList] at hmem
  simpa using not_of_mem_segments hpiece separator hmem

lemma mem_of_mem_trim {c : Char} (h : c ∈ (trim s).toList) : c ∈ s.toList := by
  rw [toList_trim, trimChars] at h
  exact (List.dropWhile_sublist _).subset ((dropTrailing_isPrefix _ _).subset h)

end Text

/-! ## Reading and writing lists of ids -/

/-- The id can stand in a list: its text is neither blank nor `null`, and it has no semicolon. -/
def NodeId.Listable (id : NodeId) : Prop :=
  id.text ≠ "" ∧ id.text ≠ "null" ∧ ';' ∉ id.text.toList

/-- **A text is read piece by piece.** -/
theorem parseIdList_append (a b : String) :
    parseIdList (a ++ ";" ++ b) = parseIdList a ++ parseIdList b := by
  have hcut : Text.splitAt ';' (a ++ ";" ++ b) = Text.splitAt ';' a ++ Text.splitAt ';' b :=
    Text.splitAt_append ';' a b
  simp only [parseIdList, hcut, List.map_append, List.filterMap_append]

lemma parseIdList_empty : parseIdList "" = [] := by
  decide +kernel

lemma parseIdList_intercalate (texts : List String) :
    parseIdList (";".intercalate texts) = texts.flatMap parseIdList := by
  induction texts with
  | nil => rw [String.intercalate_nil, parseIdList_empty, List.flatMap_nil]
  | cons text texts ih =>
    by_cases hlast : texts = []
    · simp [hlast]
    · rw [String.intercalate_cons_of_ne_nil hlast, parseIdList_append, ih, List.flatMap_cons]

lemma NodeId.Listable.parseIdList_text {id : NodeId} (h : id.Listable) :
    parseIdList id.text = [id] := by
  obtain ⟨hblank, hnull, hseparator⟩ := h
  have hpiece : Text.splitAt ';' id.text = [id.text] := Text.splitAt_eq_singleton hseparator
  simp [parseIdList, hpiece, id.trimmed, hblank, hnull]

lemma listable_of_mem_parseIdList {raw : String} {id : NodeId} (h : id ∈ parseIdList raw) :
    id.Listable := by
  obtain ⟨item, hitem, hread⟩ := List.mem_filterMap.1 h
  obtain ⟨piece, hpiece, rfl⟩ := List.mem_map.1 hitem
  split at hread
  · simp at hread
  · rename_i hnamed
    obtain rfl := Option.some.inj hread
    have hnamed' : Text.trim piece ≠ "" ∧ Text.trim piece ≠ "null" := by simpa using hnamed
    rw [NodeId.Listable, NodeId.text_ofText, Text.trim_trim]
    refine ⟨hnamed'.1, hnamed'.2, fun hmem => ?_⟩
    exact Text.not_mem_of_mem_splitAt hpiece (Text.mem_of_mem_trim hmem)

lemma idList_ofIds {name : String} {ids : List NodeId} (h : ∀ id ∈ ids, id.Listable) :
    (Argument.ofIds name ids).idList = ids := by
  calc
    (Argument.ofIds name ids).idList = (ids.map NodeId.text).flatMap parseIdList :=
      parseIdList_intercalate _
    _ = ids.flatMap fun id => parseIdList id.text := List.flatMap_map ..
    _ = ids.flatMap fun id => [id] :=
      List.flatMap_congr fun id hid => (h id hid).parseIdList_text
    _ = ids := List.flatMap_singleton' ids

/-! ## Arguments of a model -/

lemma find?_setArgument (a : Argument) (args : List Argument) (name : String) :
    (setArgument a args).find? (·.name == name) =
      if a.name = name then some a else args.find? (·.name == name) := by
  induction args with
  | nil => by_cases hname : a.name = name <;> simp [setArgument, hname]
  | cons b bs ih =>
    by_cases hsame : b.name = a.name
    · by_cases hname : a.name = name <;> simp [setArgument, hsame, hname]
    · have hset : setArgument a (b :: bs) = b :: setArgument a bs := by simp [setArgument, hsame]
      rw [hset, List.find?_cons, List.find?_cons, ih]
      by_cases hb : b.name = name
      · have hne : a.name ≠ name := fun ha => hsame (hb.trans ha.symm)
        simp [hb, hne]
      · have hother : (b.name == name) = false := by simpa using hb
        simp only [hother]

lemma Model.arg?_withArg (m : Model) (a : Argument) (name : String) :
    (m.withArg a).arg? name = if a.name = name then some a else m.arg? name :=
  find?_setArgument a m.args name

namespace Declaration

open Record

/-! ## Arrays of ids -/

/-- The checks of an array and of its elements. -/
lemma forall₂_atoms_iff {items : List Toml.Node} {atoms : List Atom} :
    List.Forall₂ (fun item a => checkAny false item = .ok () ∧ atom? item = some a) items atoms ↔
      checkItems false items = .ok () ∧ items.mapM atom? = some atoms := by
  induction items generalizing atoms with
  | nil => simp [checkItems, eq_comm]
  | cons item items ih =>
    rw [checkItems, List.mapM_cons]
    cases hcheck : checkAny false item with
    | error misfit => simp [List.forall₂_cons_left_iff, hcheck]
    | ok done =>
      cases hatom : atom? item with
      | none => simp [List.forall₂_cons_left_iff, hatom]
      | some a =>
        simp only [List.forall₂_cons_left_iff, hcheck, hatom, ih, Option.some.injEq]
        constructor
        · rintro ⟨b, rest, ⟨-, rfl⟩, ⟨hitems, hrest⟩, rfl⟩
          exact ⟨hitems, by simp [hrest]⟩
        · rintro ⟨hitems, hread⟩
          obtain ⟨rest, hrest, heq⟩ : ∃ rest, items.mapM atom? = some rest ∧ a :: rest = atoms := by
            simpa [Option.bind_eq_some_iff] using hread
          exact ⟨a, rest, ⟨trivial, rfl⟩, ⟨hitems, hrest⟩, heq.symm⟩

/-- A value lists what its atoms list, one after the other. -/
lemma nodeIds_eq_ok_iff {node : Toml.Node} {ids : List NodeId} :
    nodeIds node = .ok ids ↔
      checkAny false node = .ok () ∧
        ∃ atoms, atoms? node = some atoms ∧
          (atoms.flatMap fun a => parseIdList a.render) = ids := by
  -- Joining the atoms at semicolons and cutting the text again gives each atom its own ids.
  have htext : ∀ atoms : List Atom, parseIdList (";".intercalate (atoms.map Atom.render)) =
      atoms.flatMap fun a => parseIdList a.render := by
    intro atoms
    rw [parseIdList_intercalate, List.flatMap_map]
  rw [nodeIds, map_eq_ok_iff]
  constructor
  · rintro ⟨text, hread, rfl⟩
    obtain ⟨_, hcheck, hread⟩ := bind_eq_ok_iff.1 hread
    split at hread
    · rename_i atoms hatoms
      obtain rfl := Except.ok.inj hread
      exact ⟨hcheck, atoms, hatoms, (htext atoms).symm⟩
    · simp at hread
  · rintro ⟨hcheck, atoms, hatoms, rfl⟩
    exact ⟨_, bind_eq_ok_iff.2 ⟨(), hcheck, by simp [hatoms]⟩, htext atoms⟩

/-- An element of an array is read like the whole of a value. -/
lemma nodeIds_of_atom_iff {item : Toml.Node} {ids : List NodeId} :
    (atom? item).isSome ∧ nodeIds item = .ok ids ↔
      ∃ a, (checkAny false item = .ok () ∧ atom? item = some a) ∧ parseIdList a.render = ids := by
  cases hatom : atom? item with
  | none => simp
  | some a =>
    have hatoms : atoms? item = some [a] := by
      cases item with
      | scalar span value => simp [atoms?, hatom]
      | array span ofTables items => simp [atom?] at hatom
      | table span kind entries => simp [atom?] at hatom
    simp [nodeIds_eq_ok_iff, hatoms]

lemma exists_forall₂_of_map {α β γ : Type} {R : α → β → Prop} {f : β → γ} {xs : List α}
    {zs : List γ} (h : List.Forall₂ (fun x z => ∃ y, R x y ∧ f y = z) xs zs) :
    ∃ ys, List.Forall₂ R xs ys ∧ ys.map f = zs := by
  induction h with
  | nil => exact ⟨[], .nil, rfl⟩
  | cons hfirst _ ih =>
    obtain ⟨y, hy, rfl⟩ := hfirst
    obtain ⟨ys, hys, rfl⟩ := ih
    exact ⟨y :: ys, .cons hy hys, rfl⟩

/-- **An array is read element by element.**  An array can be read as a list of ids exactly if its
elements are atoms that can be read as such lists, and then it lists what they list, in order. -/
theorem nodeIds_array_eq_ok_iff {span : Span} {ofTables : Bool} {items : List Toml.Node}
    {ids : List NodeId} :
    nodeIds (.array span ofTables items) = .ok ids ↔
      ∃ lists, List.Forall₂ (fun item list => (atom? item).isSome ∧ nodeIds item = .ok list)
        items lists ∧ lists.flatten = ids := by
  simp only [nodeIds_of_atom_iff]
  rw [nodeIds_eq_ok_iff, checkAny, atoms?]
  constructor
  · rintro ⟨hcheck, atoms, hatoms, rfl⟩
    have hall := forall₂_atoms_iff.2 ⟨hcheck, hatoms⟩
    refine ⟨atoms.map fun a => parseIdList a.render, ?_, by rw [List.flatMap_def]⟩
    rw [List.forall₂_map_right_iff]
    exact hall.imp fun _ a ha => ⟨a, ha, rfl⟩
  · rintro ⟨lists, hall, rfl⟩
    obtain ⟨atoms, hatoms, rfl⟩ := exists_forall₂_of_map hall
    obtain ⟨hcheck, hread⟩ := forall₂_atoms_iff.1 hatoms
    exact ⟨hcheck, atoms, hread, by rw [List.flatMap_def]⟩

/-! ## Roles of a model -/

lemma arg?_makeModel {base : Node} {var : String} {args : List Argument}
    {inputs outputs : Option (List NodeId)} {name : String} {ids : List NodeId}
    (h : (name, some ids) ∈ [(Model.inputsName, inputs), (Model.outputsName, outputs)]) :
    (makeModel base var args inputs outputs).arg? name = some (.ofIds name ids) := by
  simp only [List.mem_cons, Prod.mk.injEq, List.not_mem_nil, or_false] at h
  rcases h with ⟨rfl, rfl⟩ | ⟨rfl, rfl⟩
  · -- the argument for the outputs, which is set later, has another name
    cases outputs <;>
      simp [makeModel, Model.withInputs, Model.withOutputs, Model.arg?_withArg, Argument.ofIds,
        Model.inputsName, Model.outputsName]
  · simp [makeModel, Model.withOutputs, Model.arg?_withArg, Argument.ofIds]

lemma idList_of_nodeIds {value : Toml.Node} {ids : List NodeId} (h : nodeIds value = .ok ids)
    (name : String) : (Argument.ofIds name ids).idList = ids := by
  obtain ⟨raw, -, rfl⟩ := map_eq_ok_iff.1 h
  exact idList_ofIds fun _ => listable_of_mem_parseIdList

/-- **Roles are kept.**  Where the declaration of a model lists the ids of a role, the argument of
the model for that role lists them too. -/
theorem idList_of_model {node : Toml.Node} {fs : Fields} {m : Model}
    (hread : modelShape.read node = .ok fs) (h : model node = .ok (.model m)) {name : String}
    (hname : name = Model.inputsName ∨ name = Model.outputsName) {value : Toml.Node}
    (hvalue : fs.lookup name = some value) :
    ∃ ids, nodeIds value = .ok ids ∧ (m.arg? name).map Argument.idList = some ids := by
  simp only [model, bind_eq_ok_iff, Except.ok.injEq, Entity.model.injEq] at h
  obtain ⟨fs', hfs, base, -, var, -, args, -, inputs, hinputs, outputs, houtputs, rfl⟩ := h
  obtain rfl : fs' = fs := Except.ok.inj (hfs.symm.trans hread)
  obtain ⟨found, hfound, hrole⟩ : ∃ found, fs'.get? name nodeIds = .ok found ∧
      (name, found) ∈ [(Model.inputsName, inputs), (Model.outputsName, outputs)] := by
    rcases hname with rfl | rfl
    · exact ⟨inputs, hinputs, by simp⟩
    · exact ⟨outputs, houtputs, by simp⟩
  rw [Fields.get?, hvalue] at hfound
  obtain ⟨ids, hids, rfl⟩ := map_eq_ok_iff.1 hfound
  exact ⟨ids, hids, by rw [arg?_makeModel hrole, Option.map_some, idList_of_nodeIds hids]⟩

end Declaration

/-- **Lists of ids survive as text.**  A list of ids is read back from the argument that lists them
exactly if none of its ids is blank, is `null` or has a semicolon.  Texts with a semicolon between
them are read one after the other.  What is read from a text is read again from the text of the
argument that lists it.  So an array of a declaration lists what its elements list, one after the
other, and the roles that the declaration of a model lists are read back from the arguments of the
model. -/
theorem idLists_read_back :
    (∀ (name : String) (ids : List NodeId), (Argument.ofIds name ids).idList = ids ↔
      ∀ id ∈ ids, id.text ≠ "" ∧ id.text ≠ "null" ∧ ';' ∉ id.text.toList) ∧
    (∀ a b : String, parseIdList (a ++ ";" ++ b) = parseIdList a ++ parseIdList b) ∧
    (∀ name raw : String,
      parseIdList (Argument.ofIds name (parseIdList raw)).raw = parseIdList raw) ∧
    (∀ (span : Span) (ofTables : Bool) (items : List Toml.Node) (ids : List NodeId),
      Declaration.nodeIds (.array span ofTables items) = .ok ids ↔
        ∃ lists, List.Forall₂ (fun item list =>
          (Record.atom? item).isSome ∧ Declaration.nodeIds item = .ok list) items lists ∧
            lists.flatten = ids) ∧
    ∀ (node : Toml.Node) (fs : Record.Fields) (m : Model),
      Declaration.modelShape.read node = .ok fs → Declaration.model node = .ok (.model m) →
        ∀ name, name = Model.inputsName ∨ name = Model.outputsName →
          ∀ value, fs.lookup name = some value →
            ∃ ids, Declaration.nodeIds value = .ok ids ∧
              (m.arg? name).map Argument.idList = some ids := by
  refine ⟨fun name ids => ⟨fun hback id hid => ?_, idList_ofIds⟩, parseIdList_append,
    fun name raw => ?_, fun span ofTables items ids => Declaration.nodeIds_array_eq_ok_iff,
    fun node fs m hread hm name hname value hvalue => ?_⟩
  · have hmem : id ∈ parseIdList (Argument.ofIds name ids).raw := by
      change id ∈ (Argument.ofIds name ids).idList
      rwa [hback]
    exact listable_of_mem_parseIdList hmem
  · exact idList_ofIds fun _ => listable_of_mem_parseIdList
  · exact Declaration.idList_of_model hread hm hname hvalue

/-- The inputs of a model as an array: a text with two ids, a number and `null`. -/
def mixedInputs : Toml.Node :=
  .array (.ofRange 20 40) false
    [.scalar (.ofRange 21 28) (.text "a ; b;"), .scalar (.ofRange 30 31) (.integer (some 3)),
      .scalar (.ofRange 33 39) (.text "null")]

/-- The declaration of a model with these inputs, and with other ones in an argument. -/
def mixedModel : Toml.Node :=
  .table (.ofRange 0 60) .defined
    [(⟨"args", .ofRange 1 5⟩, .array (.ofRange 6 12) false
        [.array (.ofRange 7 11) false
          [.scalar (.ofRange 7 8) (.text "inputs"), .scalar (.ofRange 9 10) (.text "c")]]),
      (⟨"id", .ofRange 13 15⟩, .scalar (.ofRange 16 17) (.text "m")),
      (⟨"inputs", .ofRange 18 19⟩, mixedInputs),
      (⟨"var", .ofRange 50 53⟩, .scalar (.ofRange 54 56) (.text "net"))]

/-- The array is read element by element, and the model has the inputs of the array.  A list with a
blank id is not read back. -/
theorem idLists_read_back_mixed :
    Declaration.nodeIds mixedInputs = .ok [.ofText "a", .ofText "b", .ofText "3"] ∧
    (∃ m, Declaration.model mixedModel = .ok (.model m) ∧
      (m.arg? Model.inputsName).map Argument.idList =
        some [.ofText "a", .ofText "b", .ofText "3"]) ∧
    (Argument.ofIds "inputs" [.ofText "a", .ofText " "]).idList ≠ [.ofText "a", .ofText " "] := by
  obtain ⟨hback, -, -, harray, hroles⟩ := idLists_read_back
  have hids : Declaration.nodeIds mixedInputs = .ok [.ofText "a", .ofText "b", .ofText "3"] := by
    refine (harray _ _ _ _).2 ⟨[[.ofText "a", .ofText "b"], [.ofText "3"], []], ?_, rfl⟩
    exact .cons ⟨rfl, rfl⟩ (.cons ⟨rfl, rfl⟩ (.cons ⟨rfl, rfl⟩ .nil))
  refine ⟨hids, ?_, ?_⟩
  · obtain ⟨fs, m, hread, hm, hvalue⟩ : ∃ fs m, Declaration.modelShape.read mixedModel = .ok fs ∧
        Declaration.model mixedModel = .ok (.model m) ∧
        fs.lookup Model.inputsName = some mixedInputs := by
      refine ⟨?fs, ?m, ?read, ?model, ?value⟩
      case read => rfl
      case model => rfl
      case value => rfl
    obtain ⟨ids, hvalue', hlisted⟩ := hroles _ fs m hread hm _ (Or.inl rfl) _ hvalue
    obtain rfl := Except.ok.inj (hids.symm.trans hvalue')
    exact ⟨m, hm, hlisted⟩
  -- A blank id cannot be written into a list, so the list does not come back.
  · intro hsame
    exact ((hback _ _).1 hsame (.ofText " ") (by simp)).1 (by decide +kernel)

end NetDiagram
