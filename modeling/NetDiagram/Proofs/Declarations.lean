import Mathlib.Data.List.Forall2
import NetDiagram.Diagram.Reading
import NetDiagram.Module.SettingsFile

/-!
# What a text declares

A text declares its entities in five lists, one for each kind.  An item of such a list is a table,
or an array of its fields in order.  This file relates the entities that are read to these items, as
they stand in the text.  Settings are read in the same way, from the one record of their text.

## Main statements

* `exists_common`: a declaration is read as an entity of its kind, and what all kinds have in common
  is read from its fields.
* `forall₂_elements`: there is one entity for every item, with the kind, the id and the place of the
  item.
* `Module.settings_of_parse`: what a settings file says.
-/

namespace NetDiagram

/-! ## Results of decoders -/

namespace Record

variable {ε α β : Type}

lemma bind_eq_ok_iff {x : Except ε α} {f : α → Except ε β} {b : β} :
    (x >>= f) = .ok b ↔ ∃ a, x = .ok a ∧ f a = .ok b := by
  cases x with
  | error err => simp [bind, Except.bind]
  | ok a => simp [bind, Except.bind]

lemma map_eq_ok_iff {x : Except ε α} {f : α → β} {b : β} :
    x.map f = .ok b ↔ ∃ a, x = .ok a ∧ f a = b := by
  cases x with
  | error err => simp [Except.map]
  | ok a => simp [Except.map]

lemma mapError_eq_ok_iff {δ : Type} {x : Except ε α} {f : ε → δ} {a : α} :
    x.mapError f = .ok a ↔ x = .ok a := by
  cases x with
  | error err => simp [Except.mapError]
  | ok a => simp [Except.mapError]

lemma wrongType_ne_ok {node : Toml.Node} {expected : String} {a : α} :
    wrongType node expected ≠ .ok a := by
  unfold wrongType
  split <;> simp

lemma forall₂_of_mapM {decode : α → Except ε β} {xs : List α} {ys : List β}
    (h : xs.mapM decode = .ok ys) : List.Forall₂ (fun x y => decode x = .ok y) xs ys := by
  induction xs generalizing ys with
  | nil =>
    obtain rfl : [] = ys := by simpa [pure, Except.pure] using h
    exact .nil
  | cons x xs ih =>
    rw [List.mapM_cons, bind_eq_ok_iff] at h
    obtain ⟨y, hy, h⟩ := h
    obtain ⟨ys', hys', h⟩ := bind_eq_ok_iff.1 h
    obtain rfl : y :: ys' = ys := by simpa [pure, Except.pure] using h
    exact .cons hy (ih hys')

lemma lookup_entries (entries : Toml.Entries) (name : String) :
    (entries.map fun (key, node) => (key.text, node)).lookup name = entries.get? name := by
  induction entries with
  | nil => rfl
  | cons entry entries ih =>
    obtain ⟨key, node⟩ := entry
    rw [List.map_cons, List.lookup_cons, ih]
    by_cases hkey : key.text = name
    · simp [Toml.Entries.get?, hkey]
    · have hkey' : (name == key.text) = false := by simpa using Ne.symm hkey
      simp [Toml.Entries.get?, hkey, hkey']

lemma Shape.eq_of_readTable {s : Shape} (span : Span) {entries : Toml.Entries} {fs : Fields}
    (h : s.readTable span entries = .ok fs) :
    fs = entries.map fun (key, node) => (key.text, node) := by
  obtain ⟨-, -, h⟩ := bind_eq_ok_iff.1 h
  split at h
  · simp at h
  · exact (Except.ok.inj h).symm

/-- The first field is called `id`, and it must be given. -/
def Shape.Identified (s : Shape) : Prop :=
  ∃ check rest, s.fields = ⟨"id", true, check⟩ :: rest

/-- The value of the field `id` of a record. -/
def idValue? : Toml.Node → Option Toml.Node
  | .table _ _ entries => Toml.Entries.get? entries "id"
  | .array _ _ items => items.head?
  | .scalar _ _ => none

lemma Shape.Identified.get?_of_readTable {s : Shape} (hs : s.Identified) {span : Span}
    {entries : Toml.Entries} {fs : Fields} (h : s.readTable span entries = .ok fs) :
    fs.lookup "id" = entries.get? "id" ∧ (entries.get? "id").isSome := by
  obtain ⟨check, rest, hfields⟩ := hs
  obtain ⟨-, -, h⟩ := bind_eq_ok_iff.1 h
  split at h
  · simp at h
  · rename_i hnone
    obtain rfl : _ = fs := Except.ok.inj h
    have hid := List.find?_eq_none.1 hnone ⟨"id", true, check⟩ (by simp [hfields])
    exact ⟨lookup_entries entries "id", by simpa [Option.isSome_iff_ne_none] using hid⟩

/-- A record that is read has an id, in whichever form it is written. -/
lemma Shape.Identified.lookup {s : Shape} (hs : s.Identified) {value : Toml.Node} {fs : Fields}
    (h : s.read value = .ok fs) : ∃ v, idValue? value = some v ∧ fs.lookup "id" = some v := by
  cases value with
  | table span kind entries =>
    obtain ⟨hlookup, hsome⟩ := hs.get?_of_readTable h
    obtain ⟨v, hv⟩ := Option.isSome_iff_exists.1 hsome
    exact ⟨v, hv, hlookup.trans hv⟩
  | array span ofTables items =>
    obtain ⟨check, rest, hfields⟩ := hs
    rw [Shape.read, mapError_eq_ok_iff, hfields] at h
    cases items with
    | nil => simp [Shape.readItems] at h
    | cons v items =>
      obtain ⟨-, -, h⟩ := bind_eq_ok_iff.1 h
      obtain ⟨fs', -, h⟩ := bind_eq_ok_iff.1 h
      obtain rfl : _ = fs := Except.ok.inj h
      exact ⟨v, rfl, by simp⟩
  | scalar span value =>
    -- a date stands for a table, but not for one with an id
    cases value with
    | dateTime =>
      have hid := (hs.get?_of_readTable h).2
      simp [Shape.dateEntries, Toml.Entries.get?] at hid
    | text | integer | decimal | boolean =>
      unfold Shape.read at h
      exact absurd h wrongType_ne_ok

end Record

/-! ## Declarations -/

namespace Declaration

open Record

/-- The kinds of declarations: the name of the list in which they stand, and how they are read. -/
def kinds : List (String × Decoder Entity) :=
  [("layer", layer), ("model", model), ("unit", unit), ("ph", placeholder), ("note", note)]

/-- A declaration of a text: the name of the list in which it stands, and its value. -/
structure Element where
  tag : String
  value : Toml.Node

namespace Element

/-- The id, as text and without blanks at its ends. -/
def id? (x : Element) : Option NodeId :=
  ((idValue? x.value).bind atom?).map fun a => NodeId.ofText a.render

/-- The byte offset at which the declaration starts. -/
def start (x : Element) : Nat :=
  x.value.span.start

/-- The entity is read from the declaration, and it has its kind, its place and its id. -/
structure Declares (x : Element) (e : Entity) : Prop where
  read : ∃ decode, (x.tag, decode) ∈ kinds ∧ decode x.value = .ok e
  tag : e.tag = x.tag
  span : e.span = some x.value.span
  id : x.id? = some e.id

end Element

/-- The items of the array of a given key. -/
def itemsAt (entries : Toml.Entries) (key : String) : List Toml.Node :=
  match entries.get? key with
  | some (.array _ _ items) => items
  | _ => []

/-- The declarations of a text, kind by kind. -/
def elements : Toml.Node → List Element
  | .table _ _ entries => kinds.flatMap fun (tag, _) => (itemsAt entries tag).map (⟨tag, ·⟩)
  | _ => []

/-! ### One declaration -/

lemma toNode_foldl_withArg (args : List Argument) (m : Model) :
    (args.foldl Model.withArg m).toNode = m.toNode := by
  induction args generalizing m with
  | nil => rfl
  | cons a args ih => exact ih (m.withArg a)

lemma toNode_makeModel (base : Node) (var : String) (args : List Argument)
    (inputs outputs : Option (List NodeId)) :
    (makeModel base var args inputs outputs).toNode = base := by
  cases inputs <;> cases outputs <;>
    simp [makeModel, Model.withInputs, Model.withOutputs, Model.withArg, toNode_foldl_withArg]

/-- A declaration is read as an entity of its kind, and what all kinds have in common is read from
the fields of a record with an id. -/
lemma exists_common {tag : String} {decode : Decoder Entity} {value : Toml.Node} {e : Entity}
    (hkind : (tag, decode) ∈ kinds) (h : decode value = .ok e) :
    e.tag = tag ∧ ∃ (s : Shape) (fs : Fields), s.Identified ∧ s.read value = .ok fs ∧
      common value fs = .ok e.node := by
  simp only [kinds, List.mem_cons, Prod.mk.injEq, List.not_mem_nil, or_false] at hkind
  rcases hkind with ⟨rfl, rfl⟩ | ⟨rfl, rfl⟩ | ⟨rfl, rfl⟩ | ⟨rfl, rfl⟩ | ⟨rfl, rfl⟩
  · simp only [layer, bind_eq_ok_iff, Except.ok.injEq] at h
    obtain ⟨fs, hfs, base, hbase, -, -, -, -, -, -, -, -, -, -, -, -, -, -, rfl⟩ := h
    exact ⟨rfl, layerShape, fs, ⟨_, _, rfl⟩, hfs, hbase⟩
  · simp only [model, bind_eq_ok_iff, Except.ok.injEq] at h
    obtain ⟨fs, hfs, base, hbase, -, -, -, -, -, -, -, -, rfl⟩ := h
    exact ⟨rfl, modelShape, fs, ⟨_, _, rfl⟩, hfs, by rw [Entity.node, toNode_makeModel, hbase]⟩
  · simp only [unit, bind_eq_ok_iff, Except.ok.injEq] at h
    obtain ⟨fs, hfs, base, hbase, -, -, -, -, -, -, rfl⟩ := h
    exact ⟨rfl, unitShape, fs, ⟨_, _, rfl⟩, hfs, hbase⟩
  · simp only [placeholder, bind_eq_ok_iff, Except.ok.injEq] at h
    obtain ⟨fs, hfs, base, hbase, -, -, rfl⟩ := h
    exact ⟨rfl, placeholderShape, fs, ⟨_, _, rfl⟩, hfs, hbase⟩
  · simp only [note, bind_eq_ok_iff, Except.ok.injEq] at h
    obtain ⟨fs, hfs, base, hbase, -, -, rfl⟩ := h
    exact ⟨rfl, noteShape, fs, ⟨_, _, rfl⟩, hfs, hbase⟩

lemma atom?_of_nodeId {v : Toml.Node} {id : NodeId} (h : nodeId v = .ok id) :
    (atom? v).map (fun a => NodeId.ofText a.render) = some id := by
  obtain ⟨a, ha, rfl⟩ := map_eq_ok_iff.1 h
  obtain ⟨-, -, ha⟩ := bind_eq_ok_iff.1 ha
  split at ha
  · rename_i a' ha'
    obtain rfl : a' = a := Except.ok.inj ha
    rw [ha', Option.map_some]
  · simp at ha

/-- The place is that of the record, and the id is read from its field. -/
lemma of_common {s : Shape} (hs : s.Identified) {value : Toml.Node} {fs : Fields}
    {base : NetDiagram.Node} (hread : s.read value = .ok fs) (h : common value fs = .ok base) :
    base.span = some value.span ∧
      ((idValue? value).bind atom?).map (fun a => NodeId.ofText a.render) = some base.id := by
  obtain ⟨v, hv, hlookup⟩ := hs.lookup hread
  simp only [common, bind_eq_ok_iff, Except.ok.injEq] at h
  obtain ⟨id, hid, -, -, -, -, rfl⟩ := h
  simp only [Fields.getD, Fields.get?, hlookup, map_eq_ok_iff] at hid
  obtain ⟨-, ⟨id, hid, rfl⟩, rfl⟩ := hid
  rw [hv, Option.bind_some]
  exact ⟨rfl, atom?_of_nodeId hid⟩

/-- **Every declaration is read as an entity of its own.** -/
theorem declares_of_read {tag : String} {decode : Decoder Entity} {value : Toml.Node} {e : Entity}
    (hkind : (tag, decode) ∈ kinds) (h : decode value = .ok e) :
    Element.Declares ⟨tag, value⟩ e := by
  obtain ⟨htag, s, fs, hs, hfs, hcommon⟩ := exists_common hkind h
  obtain ⟨hspan, hid⟩ := of_common hs hfs hcommon
  exact ⟨⟨decode, hkind, h⟩, htag, hspan, hid⟩

/-! ### All declarations -/

lemma forall₂_of_getD {tag : String} {decode : Decoder Entity} {entries : Toml.Entries}
    {es : List Entity} (hkind : (tag, decode) ∈ kinds)
    (h : Fields.getD (entries.map fun (key, node) => (key.text, node)) tag (list decode) [] =
      .ok es) :
    List.Forall₂ Element.Declares ((itemsAt entries tag).map (⟨tag, ·⟩)) es := by
  rw [Fields.getD, Fields.get?, lookup_entries] at h
  obtain ⟨es?, hes?, rfl⟩ := map_eq_ok_iff.1 h
  unfold itemsAt
  cases hget : entries.get? tag with
  | none =>
    rw [hget] at hes?
    obtain rfl : none = es? := Except.ok.inj hes?
    exact .nil
  | some value =>
    rw [hget] at hes?
    obtain ⟨es, hes, rfl⟩ := map_eq_ok_iff.1 hes?
    cases value with
    | array span ofTables items =>
      rw [List.forall₂_map_left_iff]
      exact (forall₂_of_mapM hes).imp fun _ _ hread => declares_of_read hkind hread
    | scalar | table =>
      unfold list at hes
      exact absurd hes wrongType_ne_ok

/-- **There is one entity for every declaration**, in the order of the kinds. -/
theorem forall₂_elements {span : Span} {kind : Toml.TableKind} {entries : Toml.Entries}
    {es : List Entity} (h : entities (.table span kind entries) = .ok es) :
    List.Forall₂ Element.Declares (elements (.table span kind entries)) es := by
  simp only [entities, bind_eq_ok_iff, Except.ok.injEq] at h
  obtain ⟨fs, hfs, layers, hlayers, models, hmodels, units, hunits, placeholders, hplaceholders,
    notes, hnotes, rfl⟩ := h
  obtain rfl := Shape.eq_of_readTable span hfs
  have helements : elements (.table span kind entries) =
      (itemsAt entries "layer").map (⟨"layer", ·⟩) ++
        (itemsAt entries "model").map (⟨"model", ·⟩) ++
        (itemsAt entries "unit").map (⟨"unit", ·⟩) ++ (itemsAt entries "ph").map (⟨"ph", ·⟩) ++
        (itemsAt entries "note").map (⟨"note", ·⟩) := by
    simp [elements, kinds]
  rw [helements]
  refine List.rel_append (List.rel_append (List.rel_append (List.rel_append ?_ ?_) ?_) ?_) ?_
  · exact forall₂_of_getD (by simp [kinds]) hlayers
  · exact forall₂_of_getD (by simp [kinds]) hmodels
  · exact forall₂_of_getD (by simp [kinds]) hunits
  · exact forall₂_of_getD (by simp [kinds]) hplaceholders
  · exact forall₂_of_getD (by simp [kinds]) hnotes

end Declaration

lemma exists_table_of_parse {source : String} {node : Toml.Node}
    (h : Toml.parse source = .ok node) :
    ∃ span kind entries, node = .table span kind entries := by
  simp only [Toml.parse, Record.bind_eq_ok_iff, Except.ok.injEq] at h
  obtain ⟨m, -, entries, -, rfl⟩ := h
  exact ⟨_, _, entries, rfl⟩

/-! ## Settings -/

namespace Module

open Record

/-- The text that a value is. -/
def text? : Toml.Node → Option String
  | .scalar _ (.text s) => some s
  | _ => none

/-- The text of a field of a record, given by its place among the fields and its name. -/
def fieldText? (index : Nat) (name : String) : Toml.Node → Option String
  | .table _ _ entries => (Toml.Entries.get? entries name).bind text?
  | .array _ _ items => items[index]?.bind text?
  | .scalar _ _ => none

lemma eq_of_get?_text {fs : Fields} {name : String} {value : Option String}
    (h : fs.get? name text = .ok value) : value = (fs.lookup name).bind text? := by
  unfold Fields.get? at h
  cases hlookup : fs.lookup name with
  | none =>
    rw [hlookup] at h
    exact (Except.ok.inj h).symm
  | some node =>
    rw [hlookup] at h
    obtain ⟨s, hs, rfl⟩ := map_eq_ok_iff.1 h
    unfold text at hs
    split at hs
    · obtain rfl := Except.ok.inj hs
      rfl
    · exact absurd hs wrongType_ne_ok

/-- The fields of the table `model`, in whichever form it is written. -/
lemma lookup_settings {node : Toml.Node} {fs : Fields} (h : settingsShape.read node = .ok fs) :
    (fs.lookup "name").bind text? = fieldText? 0 "name" node ∧
      (fs.lookup "author").bind text? = fieldText? 1 "author" node ∧
      (fs.lookup "comment").bind text? = fieldText? 2 "comment" node := by
  cases node with
  | table span kind entries =>
    obtain rfl := Shape.eq_of_readTable span h
    simp only [lookup_entries, fieldText?, and_self]
  | array span ofTables items =>
    rw [Shape.read, mapError_eq_ok_iff, settingsShape] at h
    -- there are as many fields as items, but at most three
    rcases items with _ | ⟨name, _ | ⟨author, _ | ⟨comment, rest⟩⟩⟩ <;>
      simp only [Shape.readItems, Record.optional, bind_eq_ok_iff, Except.ok.injEq,
        Bool.false_eq_true, if_false] at h
    · subst h
      exact ⟨rfl, rfl, rfl⟩
    · obtain ⟨-, -, -, rfl, rfl⟩ := h
      exact ⟨rfl, rfl, rfl⟩
    · obtain ⟨-, -, -, ⟨-, -, -, rfl, rfl⟩, rfl⟩ := h
      exact ⟨rfl, rfl, rfl⟩
    · obtain ⟨-, -, -, ⟨-, -, -, ⟨-, -, -, rfl, rfl⟩, rfl⟩, rfl⟩ := h
      exact ⟨rfl, rfl, rfl⟩
  | scalar span value =>
    cases value with
    | dateTime =>
      obtain rfl := Shape.eq_of_readTable span h
      exact ⟨rfl, rfl, rfl⟩
    | text | integer | decimal | boolean =>
      unfold Shape.read at h
      exact absurd h wrongType_ne_ok

/-- **What a settings file says.**  The name, the author and the comment are the texts in the table
`model`; what is not given there has its default. -/
theorem settings_of_parse {source : String} {s : Settings} (h : Settings.parse source = .ok s) :
    ∃ span kind entries, Toml.parse source = .ok (.table span kind entries) ∧
      s = match Toml.Entries.get? entries "model" with
        | none => {}
        | some node => Settings.override {} (fieldText? 0 "name" node)
            (fieldText? 1 "author" node) (fieldText? 2 "comment" node) := by
  unfold Settings.parse readText at h
  split at h
  · simp at h
  · rename_i root hroot
    obtain ⟨span, kind, entries, rfl⟩ := exists_table_of_parse hroot
    refine ⟨span, kind, entries, hroot, ?_⟩
    split at h
    · simp at h
    · rename_i s' hread
      obtain rfl := Except.ok.inj h
      obtain ⟨fs, hfs, hget⟩ := bind_eq_ok_iff.1 hread
      obtain rfl := Shape.eq_of_readTable span hfs
      rw [Fields.getD, Fields.get?, lookup_entries] at hget
      obtain ⟨found, hfound, rfl⟩ := map_eq_ok_iff.1 hget
      cases hmodel : Toml.Entries.get? entries "model" with
      | none =>
        rw [hmodel] at hfound
        obtain rfl := Except.ok.inj hfound
        rfl
      | some node =>
        rw [hmodel] at hfound
        obtain ⟨s, hs, rfl⟩ := map_eq_ok_iff.1 hfound
        simp only [settings, bind_eq_ok_iff] at hs
        obtain ⟨fields, hfields, name, hname, author, hauthor, comment, hcomment, hs⟩ := hs
        obtain ⟨hname', hauthor', hcomment'⟩ := lookup_settings hfields
        rw [← eq_of_get?_text hname] at hname'
        rw [← eq_of_get?_text hauthor] at hauthor'
        rw [← eq_of_get?_text hcomment] at hcomment'
        dsimp only
        rw [← hname', ← hauthor', ← hcomment', Option.getD_some]
        exact (Except.ok.inj hs).symm

end Module

end NetDiagram
