import NetDiagram.Proofs.LineBreaks
import NetDiagram.Proofs.Required

/-!
# Statements and lines

A statement is meant to be one line of the build method.  Its text is put together from names, which
stand as they are, and from the values of arguments: those of one class are quoted, and quoting
leaves line breaks alone.  So a text argument can break a line, in the statement of its own entity
and in every statement that the entity is written in.

This file shows that nothing else does.  In a document whose names and other values have no line
breaks, a statement is one line exactly if none of the items that are quoted in it, at whatever
depth, has a line break after trimming.

## Main statements

* `Flow.Spells.unbroken_iff`: only quoted items break the spelling of a piece.
* `Flow.Walk.Reached.unbroken_text_iff`: only quoted items break the statement of a node.
* `Module.physicalLines_build`: the lines of the build method in the text of a module.
* `Module.statement_lines_iff`: when a statement is one line, and when the build method has one line
  for each statement.
-/

namespace NetDiagram

/-! ## Documents without broken names -/

namespace Entity

/-- The names that an entity brings into the generated text. -/
def names : Entity → List String
  | layer l => [l.var, l.className]
  | model m => [m.var, m.className]
  | unit u => [u.source, u.className]
  | placeholder p => [p.name]
  | note _ => []

end Entity

/-- The argument has no line break in its name, nor in its value unless the value is quoted. -/
@[mk_iff]
structure Argument.PlainlyUnbroken (a : Argument) : Prop where
  name : Text.Unbroken a.name
  value : a.kind ≠ .str → Text.Unbroken a.raw

instance : DecidablePred Argument.PlainlyUnbroken := fun a =>
  decidable_of_iff' _ (Argument.plainlyUnbroken_iff a)

/-- No line break is in what a document has written as it stands. -/
@[mk_iff]
structure Document.PlainlyUnbroken (d : Document) : Prop where
  names : ∀ e ∈ d.entities, ∀ name ∈ e.names, Text.Unbroken name
  args : ∀ e ∈ d.entities, ∀ a ∈ e.args, a.PlainlyUnbroken

instance : DecidablePred Document.PlainlyUnbroken := fun d =>
  decidable_of_iff' _ (Document.plainlyUnbroken_iff d)

lemma Document.PlainlyUnbroken.unbroken_names {d : Document} (h : d.PlainlyUnbroken) {id : NodeId}
    {e : Entity} (hget : d.get? id = some e) : ∀ name ∈ e.names, Text.Unbroken name :=
  h.names e (mem_of_get? hget)

/-- The items of an argument that are quoted, as they are written. -/
def Argument.quotedItems (a : Argument) : List String :=
  if a.kind = .str then a.items.map Text.trim else []

/-- The items of arguments that are quoted, as they are written. -/
def quotedItems (args : List Argument) : List String :=
  args.flatMap Argument.quotedItems

lemma Argument.unbroken_item {a : Argument} (h : Text.Unbroken a.raw) :
    ∀ item ∈ a.items.map Text.trim, Text.Unbroken item := by
  intro item hitem c hc
  obtain ⟨piece, hpiece, rfl⟩ := List.mem_map.1 hitem
  obtain ⟨cs, hcs, rfl⟩ := List.mem_map.1 hpiece
  have hmem := Text.mem_of_mem_trim hc
  rw [String.toList_ofList] at hmem
  exact h c (Text.mem_of_mem_segments hcs hmem)

namespace Flow

variable {d : Document} {piece : Piece} {texts : List String}

/-! ## Pieces -/

lemma unbroken_bracket {items : List String} :
    Text.Unbroken (bracket items) ↔ ∀ item ∈ items, Text.Unbroken item := by
  match items with
  | [item] => simp [bracket]
  | [] => simp [bracket, Text.Unbroken, Text.isBreak]
  | item :: next :: rest =>
    rw [bracket, Text.unbroken_append, Text.unbroken_append,
      Text.unbroken_intercalate (by decide +kernel)]
    · have hopen : Text.Unbroken "[" := by decide +kernel
      have hclose : Text.Unbroken "]" := by decide +kernel
      simp only [hopen, hclose, true_and, and_true]
    · simp

lemma unbroken_callText {source className : String} {args : List String}
    (hsource : Text.Unbroken source) (hclass : Text.Unbroken className) :
    Text.Unbroken (callText source className args) ↔ ∀ text ∈ args, Text.Unbroken text := by
  have hdot : Text.Unbroken "." := by decide +kernel
  have hopen : Text.Unbroken "(" := by decide +kernel
  have hclose : Text.Unbroken ")" := by decide +kernel
  simp only [callText, Text.unbroken_append, hsource, hclass, hdot, hopen, hclose, true_and,
    and_true, Text.unbroken_intercalate (show Text.Unbroken ", " by decide +kernel)]

namespace Piece

/-- The items that a piece quotes itself. -/
def quoted : Piece → List String
  | args as => quotedItems as
  | items a xs => if a.kind = .str then xs else []
  | reference _ _ => []

/-- What the piece writes itself as it stands has no line break. -/
def PlainlyUnbroken : Piece → Prop
  | args as => ∀ a ∈ as, a.PlainlyUnbroken
  | items a xs => a.kind ≠ .str → ∀ x ∈ xs, Text.Unbroken x
  | reference _ _ => True

/-- No item that is quoted in the piece, by the piece itself or in something that is written inside
it, has a line break. -/
structure QuotesUnbroken (d : Document) (piece : Piece) : Prop where
  own : ∀ item ∈ piece.quoted, Text.Unbroken item
  inside : ∀ x o, Involves d piece.references x → d.get? x = some o → (inlineCall? o).isSome →
    ∀ item ∈ quotedItems o.args, Text.Unbroken item

lemma quotesUnbroken_iff_of_append {piece₁ piece₂ : Piece}
    (hquoted : piece.quoted = piece₁.quoted ++ piece₂.quoted)
    (hreferences : piece.references = piece₁.references ++ piece₂.references) :
    piece.QuotesUnbroken d ↔ piece₁.QuotesUnbroken d ∧ piece₂.QuotesUnbroken d := by
  constructor
  · rintro ⟨hown, hinside⟩
    simp only [hquoted, List.forall_mem_append] at hown
    simp only [hreferences, involves_append] at hinside
    exact ⟨⟨hown.1, fun x o hx => hinside x o (Or.inl hx)⟩,
      ⟨hown.2, fun x o hx => hinside x o (Or.inr hx)⟩⟩
  · rintro ⟨⟨hown₁, hinside₁⟩, hown₂, hinside₂⟩
    refine ⟨?_, fun x o hx => ?_⟩
    · rw [hquoted, List.forall_mem_append]
      exact ⟨hown₁, hown₂⟩
    · rw [hreferences, involves_append] at hx
      exact hx.elim (hinside₁ x o) (hinside₂ x o)

lemma quotesUnbroken_of_nil (hquoted : piece.quoted = []) (hreferences : piece.references = []) :
    piece.QuotesUnbroken d :=
  ⟨by simp [hquoted], fun x o hx => by simp [hreferences, Involves] at hx⟩

lemma quotesUnbroken_leaf {a : Argument} {id : NodeId} {e : Entity} (hget : d.get? id = some e)
    (hcall : inlineCall? e = none) : (reference a id).QuotesUnbroken d := by
  refine ⟨by simp [quoted], fun x o hx ho hinline => ?_⟩
  obtain rfl := eq_of_reaches_leaf hget hcall (involves_singleton.1 hx)
  obtain rfl : e = o := Option.some.inj (hget.symm.trans ho)
  simp [hcall] at hinline

/-- A reference to a unit or an inline layer quotes what its arguments quote. -/
lemma quotesUnbroken_call_iff {a : Argument} {id : NodeId} {e : Entity} (hget : d.get? id = some e)
    (hcall : (inlineCall? e).isSome) :
    (reference a id).QuotesUnbroken d ↔ (args e.args).QuotesUnbroken d := by
  have hinvolves : ∀ x, Involves d (reference a id).references x ↔
      x = id ∨ Involves d (args e.args).references x := by
    intro x
    exact involves_singleton.trans (reaches_call_iff hget hcall)
  constructor
  · rintro ⟨-, hinside⟩
    refine ⟨?_, fun x o hx => hinside x o ((hinvolves x).2 (Or.inr hx))⟩
    exact hinside id e ((hinvolves id).2 (Or.inl rfl)) hget hcall
  · rintro ⟨hown, hinside⟩
    refine ⟨by simp [quoted], fun x o hx ho hinline => ?_⟩
    rcases (hinvolves x).1 hx with rfl | hx
    · obtain rfl : e = o := Option.some.inj (hget.symm.trans ho)
      exact hown
    · exact hinside x o hx ho hinline

end Piece

/-- **Only quoted items break lines.**  In a document without broken names, the texts of a piece
have no line break exactly if no item that is quoted in it has one. -/
theorem Spells.unbroken_iff (h : Spells d piece texts) (hd : d.PlainlyUnbroken)
    (hpiece : piece.PlainlyUnbroken) :
    (∀ text ∈ texts, Text.Unbroken text) ↔ piece.QuotesUnbroken d := by
  induction h with
  | noArgs =>
    have hnil : (Piece.args []).QuotesUnbroken d := Piece.quotesUnbroken_of_nil rfl rfl
    simp [hnil]
  | @arg a rest items _ _ _ _ whole _ ihfirst ihothers =>
    obtain ⟨ha, hrest⟩ := List.forall_mem_cons.1 hpiece
    have hitems : (Piece.items a (a.items.map Text.trim)).PlainlyUnbroken :=
      fun hk => Argument.unbroken_item (ha.value hk)
    have htext : Text.Unbroken (a.name ++ "=" ++ bracket items) ↔
        ∀ item ∈ items, Text.Unbroken item := by
      have hequals : Text.Unbroken "=" := by decide +kernel
      simp only [Text.unbroken_append, ha.name, hequals, true_and, unbroken_bracket]
    rw [valueText_iff.1 whole, List.forall_mem_cons, htext, ihfirst hitems, ihothers hrest,
      Piece.quotesUnbroken_iff_of_append _ (Piece.references_args_cons a rest)]
    simp [Piece.quoted, quotedItems, Argument.quotedItems]
  | @noItems a =>
    have hnil : (Piece.items a []).QuotesUnbroken d :=
      Piece.quotesUnbroken_of_nil (by simp [Piece.quoted]) (by simp [Piece.references])
    simp [hnil]
  | @quoted a item rest _ kind _ ih =>
    rw [List.forall_mem_cons, Text.unbroken_quote, ih fun hk => absurd kind hk]
    constructor
    · rintro ⟨hitem, hown, hinside⟩
      refine ⟨?_, by simpa [Piece.references, kind] using hinside⟩
      simpa [Piece.quoted, kind] using ⟨hitem, by simpa [Piece.quoted, kind] using hown⟩
    · rintro ⟨hown, hinside⟩
      obtain ⟨hitem, hrest⟩ : Text.Unbroken item ∧ ∀ x ∈ rest, Text.Unbroken x := by
        simpa [Piece.quoted, kind] using hown
      exact ⟨hitem, by simpa [Piece.quoted, kind] using hrest,
        by simpa [Piece.references, kind] using hinside⟩
  | @verbatim a item rest _ kind _ ih =>
    have hstr : a.kind ≠ .str := by rcases kind with kind | kind | kind <;> simp [kind]
    have hid : a.kind ≠ .id := by rcases kind with kind | kind | kind <;> simp [kind]
    obtain ⟨hitem, hrest⟩ := List.forall_mem_cons.1 (hpiece hstr)
    have hnil : ∀ xs, (Piece.items a xs).QuotesUnbroken d := fun xs =>
      Piece.quotesUnbroken_of_nil (by simp [Piece.quoted, hstr]) (by simp [Piece.references, hid])
    rw [List.forall_mem_cons, ih fun _ => hrest]
    simp only [hitem, hnil, and_self]
  | @item a item _ rest _ kind _ _ ihfirst ihothers =>
    have hstr : a.kind ≠ .str := by simp [kind]
    have hrest : (Piece.items a rest).PlainlyUnbroken :=
      fun hk => (List.forall_mem_cons.1 (hpiece hk)).2
    rw [List.forall_mem_cons, ihothers hrest, ← List.forall_mem_singleton (p := Text.Unbroken),
      ihfirst trivial,
      Piece.quotesUnbroken_iff_of_append _ (Piece.references_items_cons kind item rest)]
    simp [Piece.quoted, hstr]
  | placeholder get =>
    have hself : Text.Unbroken "self." := by decide +kernel
    have hname := hd.unbroken_names get _ (List.mem_singleton.2 rfl)
    simp [hself, hname, Piece.quotesUnbroken_leaf get rfl]
  -- A call is as unbroken as its arguments, which have to be considered in their own entity.
  | @unit a _ u _ get inner ih =>
    obtain ⟨hsource, hclass⟩ : Text.Unbroken u.source ∧ Text.Unbroken u.className := by
      simpa [Entity.names] using hd.unbroken_names get
    rw [List.forall_mem_singleton, Piece.quotesUnbroken_call_iff get rfl]
    exact (unbroken_callText hsource hclass).trans (ih (hd.args _ (Document.mem_of_get? get)))
  | @inline a _ l _ get mode inner ih =>
    have hclass : Text.Unbroken l.className := hd.unbroken_names get _ (by simp [Entity.names])
    have hcall : (inlineCall? (.layer l)).isSome := by simp [inlineCall?, mode, Mode.isMaterialized]
    rw [List.forall_mem_singleton, Piece.quotesUnbroken_call_iff get hcall]
    exact (unbroken_callText (by decide +kernel) hclass).trans
      (ih (hd.args _ (Document.mem_of_get? get)))
  | @named a _ l get mode =>
    have hvar : Text.Unbroken l.var := hd.unbroken_names get _ (by simp [Entity.names])
    simp [hvar, Piece.quotesUnbroken_leaf get (inlineCall?_layer_of_ne_ca mode)]

/-! ## Statements -/

/-- No item that is quoted in the statement of the entity has a line break. -/
def QuotesUnbroken (d : Document) (e : Entity) : Prop :=
  ∀ o, RenderedWith d e o → ∀ item ∈ quotedItems o.args, Text.Unbroken item

lemma quotesUnbroken_iff {e : Entity} :
    (Piece.args e.args).QuotesUnbroken d ↔ QuotesUnbroken d e := by
  constructor
  · rintro ⟨hown, hinside⟩ o (rfl | ⟨x, ⟨hinvolves, o', hget', hcall⟩, hget⟩)
    · exact hown
    · obtain rfl : o' = o := Option.some.inj (hget'.symm.trans hget)
      exact hinside x o' hinvolves hget hcall
  · intro h
    exact ⟨h e (Or.inl rfl), fun x o hinvolves hget hcall =>
      h o (Or.inr ⟨x, ⟨hinvolves, o, hget, hcall⟩, hget⟩)⟩

lemma SpellsArgs.unbroken_iff {e : Entity} {text : String} (h : SpellsArgs d e.args text)
    (hd : d.PlainlyUnbroken) (he : e ∈ d.entities) : Text.Unbroken text ↔ QuotesUnbroken d e := by
  obtain ⟨texts, hspells, rfl⟩ := h
  rw [Text.unbroken_intercalate (by decide +kernel), hspells.unbroken_iff hd (hd.args e he),
    quotesUnbroken_iff]

lemma Statement.unbroken_text_iff {st : Statement} (hvar : Text.Unbroken st.var)
    (hsource : Text.Unbroken st.source) (hclass : Text.Unbroken st.className)
    (hcall : ∀ call ∈ st.call, Text.Unbroken call) :
    Text.Unbroken st.text ↔ Text.Unbroken st.args := by
  have hempty : Text.Unbroken "" := by decide +kernel
  have hdot : Text.Unbroken "." := by decide +kernel
  have hopen : Text.Unbroken "(" := by decide +kernel
  have hclose : Text.Unbroken ")" := by decide +kernel
  have hassignment : Text.Unbroken (if st.var == "" then "" else st.var ++ " = ") := by
    split
    · exact hempty
    · exact Text.unbroken_append.2 ⟨hvar, by decide +kernel⟩
  cases hst : st.call with
  | none =>
    simp only [text, hst, Text.unbroken_append, hassignment, hsource, hdot, hclass, hopen, hclose,
      hempty, true_and, and_true]
  | some call =>
    simp only [text, hst, Text.unbroken_append, hassignment, hsource, hdot, hclass, hopen, hclose,
      hcall call hst, true_and, and_true]

/-- What a layer is called with is put together from variables. -/
lemma Called.unbroken {before : List Entity} {l : Layer} {call : String}
    (h : Called before l (some call)) (hd : d.PlainlyUnbroken)
    (hbefore : ∀ e ∈ before, e ∈ d.entities) : Text.Unbroken call := by
  have hvar : ∀ {p : Layer}, .layer p ∈ before → Text.Unbroken p.var := fun hp =>
    hd.names _ (hbefore _ hp) _ (by simp [Entity.names])
  cases h with
  | single _ hmem _ => exact hvar hmem
  | @many ps _ _ hmem =>
    rw [unbroken_bracket, List.forall_mem_map]
    exact fun p hp => hvar (hmem p hp).1

/-- The statement of a node is one line exactly if what it quotes is unbroken. -/
lemma Walk.Reached.unbroken_text_iff {w : Walk} {nodes : List Entity} (h : Walk.Reached d w)
    (hnodes : w.draft.Transcribes d nodes) (hd : d.PlainlyUnbroken) {i : Nat} {e : Entity}
    {st : Statement} (he : nodes[i]? = some e) (hst : w.draft.statements[i]? = some st) :
    Text.Unbroken st.text ↔ QuotesUnbroken d e := by
  have hmem : ∀ e ∈ nodes, e ∈ d.entities := fun e he =>
    Document.mem_of_get? (hnodes.transcript.get?_of_mem he)
  have hentity := hmem e (List.mem_of_getElem? he)
  have hargs := (h.spellsArgs hnodes he hst).unbroken_iff hd hentity
  have hnames := hd.names e hentity
  rw [← hargs]
  -- Beside its arguments a statement has only names of the document.
  cases hnodes.transcript.justified_at he hst with
  | layer hcalled =>
    refine Statement.unbroken_text_iff (hnames _ (by simp [Entity.names]))
      (show Text.Unbroken layerSource by decide +kernel) (hnames _ (by simp [Entity.names])) ?_
    rintro call rfl
    exact hcalled.unbroken hd fun p hp => hmem p (List.mem_of_mem_take hp)
  | model _ _ =>
    exact Statement.unbroken_text_iff (hnames _ (by simp [Entity.names]))
      (show Text.Unbroken modelSource by decide +kernel) (hnames _ (by simp [Entity.names]))
      (by simp)

lemma Walk.Reached.forall_unbroken_iff {w : Walk} {nodes : List Entity} (h : Walk.Reached d w)
    (hnodes : w.draft.Transcribes d nodes) (hd : d.PlainlyUnbroken) :
    (∀ st ∈ w.draft.statements, Text.Unbroken st.text) ↔ ∀ e ∈ nodes, QuotesUnbroken d e := by
  have hlength : nodes.length = w.draft.statements.length := hnodes.transcript.length_eq
  rw [List.forall_mem_iff_getElem, List.forall_mem_iff_getElem]
  constructor
  · intro hall i hi
    exact (h.unbroken_text_iff hnodes hd (List.getElem?_eq_getElem hi)
      (List.getElem?_eq_getElem _)).1 (hall i (hlength ▸ hi))
  · intro hall i hi
    exact (h.unbroken_text_iff hnodes hd (List.getElem?_eq_getElem _)
      (List.getElem?_eq_getElem hi)).2 (hall i (hlength ▸ hi))

lemma Emission.unbroken_endpoints {nodes : List Entity} {c : Compilation} (h : Emission d nodes c)
    (hd : d.PlainlyUnbroken) : ∀ var ∈ c.endpoints, Text.Unbroken var := by
  rw [h.endpoints]
  intro var hvar
  obtain ⟨e, he, hm⟩ := List.mem_filterMap.1 hvar
  obtain ⟨m, hmodel, rfl⟩ := Option.map_eq_some_iff.1 hm
  cases e with
  | model _ =>
    obtain rfl := Option.some.inj hmodel
    exact hd.names _ (h.mem_entities _ he) _ (by simp [Entity.names])
  | _ => simp [Entity.model?] at hmodel

end Flow

/-! ## The build method -/

namespace Module

open NetDiagram.Flow

/-- The lines of the statements in the build method. -/
def bodyLines (c : Compilation) : List String :=
  c.lines.map (tab ++ tab ++ ·)

/-- The last line of the build method. -/
def returnLine (c : Compilation) : String :=
  Text.trimEnd (tab ++ tab ++ "return " ++ ", ".intercalate c.endpoints)

/-- The lines of the build method in the text of a module, from its first line to the end of the
text. -/
lemma physicalLines_build {c : Compilation} (h : ∀ var ∈ c.endpoints, Text.Unbroken var)
    (s : Settings) (date : String) :
    ∃ before, Text.physicalLines (moduleText s date c) =
      before ++ (tab ++ "def build(self):") :: (bodyLines c).flatMap Text.physicalLines ++
        ["", returnLine c, ""] := by
  have hreturn : Text.Unbroken (returnLine c) := by
    refine Text.Unbroken.trimEnd ?_
    rw [Text.unbroken_append, Text.unbroken_append, Text.unbroken_intercalate (by decide +kernel)]
    exact ⟨⟨by decide +kernel, by decide +kernel⟩, h⟩
  have hbuild : buildLines c =
      ["", tab ++ "def build(self):"] ++ bodyLines c ++ ["", returnLine c] := rfl
  have hempty : Text.physicalLines "" = [""] :=
    Text.physicalLines_of_unbroken (by decide +kernel)
  have hfirst : Text.physicalLines (tab ++ "def build(self):") = [tab ++ "def build(self):"] :=
    Text.physicalLines_of_unbroken (by decide +kernel)
  refine ⟨(headerLines (title s.name) (Text.capitalize s.author) date ++ c.sources.map importLine ++
    classLines s ++ constructorLines c.placeholders ++ [""]).flatMap Text.physicalLines, ?_⟩
  rw [physicalLines_moduleText, moduleLines_eq, hbuild]
  simp only [List.flatMap_append, List.flatMap_cons, List.flatMap_nil, hempty, hfirst,
    Text.physicalLines_of_unbroken hreturn, List.append_assoc, List.cons_append, List.nil_append]

lemma flatMap_physicalLines_bodyLines_iff {c : Compilation} :
    (bodyLines c).flatMap Text.physicalLines = bodyLines c ↔
      ∀ line ∈ c.lines, Text.Unbroken line := by
  have htab : Text.Unbroken tab := by decide +kernel
  rw [Text.flatMap_physicalLines_eq_self_iff, bodyLines, List.forall_mem_map]
  simp only [Text.unbroken_append, htab, true_and]

/-- **Which statements are lines.**  In a document whose names and unquoted values have no line
break, a statement of a compilation is one line exactly if no item that is quoted in it has a line
break.  In the text of the module the statements stand between the first line of the build method
and its last one, which are lines in any case; there is one line for each statement exactly if this
is so for all of them. -/
theorem statement_lines_iff (d : Document) (c : Compilation) (h : compile d = .ok c)
    (hd : d.PlainlyUnbroken) :
    ∃ nodes, Emission d nodes c ∧
      (∀ (i : Nat) (e : Entity) (line : String), nodes[i]? = some e → c.lines[i]? = some line →
        (Text.Unbroken line ↔ QuotesUnbroken d e)) ∧
      ∀ (s : Settings) (date : String),
        (∃ before, Text.physicalLines (moduleText s date c) =
          before ++ (tab ++ "def build(self):") :: (bodyLines c).flatMap Text.physicalLines ++
            ["", returnLine c, ""]) ∧
        ((bodyLines c).flatMap Text.physicalLines = bodyLines c ↔
          ∀ e ∈ nodes, QuotesUnbroken d e) := by
  obtain ⟨t, hreached, rfl⟩ := exists_reached_of_compile h
  obtain ⟨nodes, hnodes⟩ := hreached.transcribes
  have hemission := hnodes.emission hreached.joined.nodup
  have hline : ∀ (i : Nat) (e : Entity) (line : String), nodes[i]? = some e →
      (t.finish d).lines[i]? = some line → (Text.Unbroken line ↔ QuotesUnbroken d e) := by
    intro i e line he hline
    rw [Compilation.lines, List.getElem?_map] at hline
    obtain ⟨st, hst, rfl⟩ := Option.map_eq_some_iff.1 hline
    exact hreached.unbroken_text_iff hnodes hd he hst
  refine ⟨nodes, hemission, hline, fun s date =>
    ⟨physicalLines_build (hemission.unbroken_endpoints hd) s date, ?_⟩⟩
  rw [flatMap_physicalLines_bodyLines_iff, Compilation.lines, List.forall_mem_map]
  exact hreached.forall_unbroken_iff hnodes hd

/-- A layer whose only text argument ends in a line break, which is trimmed, and a layer with a unit
that has a line break in the middle of a text. -/
def banner : Document where
  entities :=
    [.unit
      { id := .ofText "u", className := "Text", source := "strings"
        args := [⟨"label", "top\nbottom", .str⟩] },
    .layer
      { id := .ofText "a", var := "x", className := "Input", entrance := true
        args := [⟨"name", "first\n", .str⟩], output := [.ofText "b", .ofText "m"] },
    .layer
      { id := .ofText "b", var := "y", className := "Dense", args := [⟨"init", "u", .id⟩]
        input := .single (.ofText "a"), output := [.ofText "m"] },
    .model
      { id := .ofText "m", var := "model"
        args := [⟨"inputs", "a", .id⟩, ⟨"outputs", "b", .id⟩] }]
  nodup := by decide +kernel

/-- The statements of `banner`. -/
def bannerLines : List String :=
  ["x = layers.Input(name=\"first\")",
    "y = layers.Dense(init=strings.Text(label=\"top\nbottom\"))(x)",
    "model = models.Model(inputs=x, outputs=y)"]

lemma compile_banner : ∃ c, compile banner = .ok c ∧ c.lines = bannerLines := by
  have hrun : (evaluate banner 12 7).map (·.lines) = some bannerLines := by
    decide +kernel
  obtain ⟨c, hc, hlines⟩ := Option.map_eq_some_iff.1 hrun
  exact ⟨c, compile_of_evaluate (by cbv) hc, hlines⟩

lemma plainlyUnbroken_banner : banner.PlainlyUnbroken := by
  decide +kernel

/-- The statements of `banner`: a line break at the end of a text is trimmed, one in the middle is
not. -/
theorem statement_lines_iff_banner :
    banner.PlainlyUnbroken ∧ ∃ c, compile banner = .ok c ∧ c.lines = bannerLines ∧
      ∃ nodes, Emission banner nodes c ∧
        (∀ (i : Nat) (e : Entity) (line : String), nodes[i]? = some e → c.lines[i]? = some line →
          (Text.Unbroken line ↔ QuotesUnbroken banner e)) ∧
        ∀ (s : Settings) (date : String),
          (∃ before, Text.physicalLines (moduleText s date c) =
            before ++ (tab ++ "def build(self):") :: (bodyLines c).flatMap Text.physicalLines ++
              ["", returnLine c, ""]) ∧
          ((bodyLines c).flatMap Text.physicalLines = bodyLines c ↔
            ∀ e ∈ nodes, QuotesUnbroken banner e) := by
  obtain ⟨c, hc, hlines⟩ := compile_banner
  exact ⟨plainlyUnbroken_banner, c, hc, hlines,
    statement_lines_iff banner c hc plainlyUnbroken_banner⟩

/-- A statement that is two lines, in a document that has line breaks in texts only: the build
method of its three statements has four lines. -/
theorem statement_of_two_lines :
    banner.PlainlyUnbroken ∧ ∃ c, compile banner = .ok c ∧
      (∃ line ∈ c.lines, ¬ Text.Unbroken line) ∧ c.statements.length = 3 ∧
      (bodyLines c).flatMap Text.physicalLines =
        [tab ++ tab ++ "x = layers.Input(name=\"first\")",
          tab ++ tab ++ "y = layers.Dense(init=strings.Text(label=\"top", "bottom\"))(x)",
          tab ++ tab ++ "model = models.Model(inputs=x, outputs=y)"] := by
  obtain ⟨c, hc, hlines⟩ := compile_banner
  refine ⟨plainlyUnbroken_banner, c, hc, ?_, ?_, ?_⟩
  · rw [hlines]
    decide +kernel
  · simpa [Compilation.lines, bannerLines] using congrArg List.length hlines
  · rw [bodyLines, hlines]
    decide +kernel

end Module

end NetDiagram
