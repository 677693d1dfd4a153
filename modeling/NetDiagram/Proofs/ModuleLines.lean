import NetDiagram.Proofs.Header
import NetDiagram.Proofs.StatementLines
import NetDiagram.Proofs.Wrapping

/-!
# Modules that are read as they are written

The lines of a module import what its statements use, and its constructor sets what they use.  To
those who read the text of the module, its lines are what stands between line breaks; so this says
something about the text only if no line brings a line break of its own.

Line breaks come from outside, with the author, the date and the document.  The name of the class
brings none, for it has letters, digits and underscores only.  Nor does the comment, for it is cut
into words and put together again with spaces.

## Main statements

* `unbroken_moduleLines`: the lines of a module are unbroken if what comes from outside is.
* `uses_supplied_once`: the imports and the parameters of a module are those that it uses.
-/

namespace NetDiagram

/-! ## Lines of a comment -/

namespace Text

lemma IsWord.unbroken {w : String} (h : IsWord w) : Unbroken w := by
  intro c hc
  have hblank := h.2 c hc
  rw [Bool.eq_false_iff]
  intro hbreak
  simp only [isBreak, Bool.or_eq_true, beq_iff_eq] at hbreak
  -- a line break is a blank
  rcases hbreak with rfl | rfl
  · simp [isBlank] at hblank
  · simp [isBlank] at hblank

lemma unbroken_of_mem_wrap {s line : String} {width : Nat} (h : line ∈ wrap s width) :
    Unbroken line := by
  rw [← ((isGreedyWrap_wrap s width).isLine line h).spaced, unbroken_intercalate (by decide)]
  exact fun w hw => (isWord_of_mem_words hw).unbroken

end Text

/-! ## Uses -/

namespace Flow

variable {d : Document}

/-- The text of the group or of the member that is used. -/
def Use.text : Use → String
  | group source => source
  | parameter name => name

/-- What is used is named in the document, but for the group of layers. -/
lemma Reads.unbroken_uses {piece : Piece} {texts : List String} {uses : List Use}
    (h : Reads d piece texts uses) (hd : d.PlainlyUnbroken) :
    ∀ use ∈ uses, Text.Unbroken use.text := by
  induction h with
  | noArgs | noItems | named _ _ => simp
  | arg _ _ ihfirst ihothers => exact List.forall_mem_append.2 ⟨ihfirst, ihothers⟩
  | literal _ _ ih => exact ih
  | item _ _ _ ihfirst ihothers => exact List.forall_mem_append.2 ⟨ihfirst, ihothers⟩
  | @placeholder _ _ p get =>
    rw [List.forall_mem_singleton]
    exact hd.unbroken_names get _ (by simp [Entity.names, Use.text])
  | @unit _ _ u _ _ get _ ih =>
    rw [List.forall_mem_cons]
    exact ⟨hd.unbroken_names get _ (by simp [Entity.names, Use.text]), ih⟩
  | inline _ _ _ ih =>
    rw [List.forall_mem_cons]
    exact ⟨by decide, ih⟩

lemma ReadsStatements.unbroken_uses {ids : List NodeId} {statements : List Statement}
    {uses : List Use} (h : ReadsStatements d ids statements uses) (hd : d.PlainlyUnbroken)
    (hsource : ∀ st ∈ statements, Text.Unbroken st.source) :
    ∀ use ∈ uses, Text.Unbroken use.text := by
  induction h with
  | nil => simp
  | snoc _ _ args _ ih =>
    rw [List.forall_mem_append, List.forall_mem_singleton] at hsource
    rw [List.forall_mem_append, List.forall_mem_cons]
    exact ⟨ih hsource.1, hsource.2, args.unbroken_uses hd⟩

lemma Emission.unbroken_source {nodes : List Entity} {c : Compilation} (h : Emission d nodes c) :
    ∀ st ∈ c.statements, Text.Unbroken st.source := by
  intro st hst
  obtain ⟨i, hi⟩ := List.mem_iff_getElem?.1 hst
  have hlt : i < nodes.length := by
    rw [h.length_eq]
    exact (List.getElem?_eq_some_iff.1 hi).1
  rcases h.statement i _ st (List.getElem?_eq_getElem hlt) hi with ⟨l, -, hl⟩ | ⟨m, -, hm⟩
  · rw [hl.source]
    decide
  · rw [hm.source]
    decide

lemma quotesUnbroken_of_forall
    (h : ∀ e ∈ d.entities, ∀ item ∈ quotedItems e.args, Text.Unbroken item) {e : Entity}
    (he : e ∈ d.entities) : QuotesUnbroken d e := by
  rintro o (rfl | ⟨x, -, hget⟩)
  · exact h o he
  · exact h o (Document.mem_of_get? hget)

end Flow

/-! ## Lines of a module -/

namespace Module

open NetDiagram.Flow

variable {d : Document} {c : Compilation}

lemma unbroken_headerLines (s : Settings) {date : String} (hauthor : Text.Unbroken s.author)
    (hdate : Text.Unbroken date) :
    ∀ line ∈ headerLines (title s.name) (Text.capitalize s.author) date, Text.Unbroken line := by
  have htitle := unbroken_title s.name
  have hfile := unbroken_fileName htitle
  simp only [headerLines, List.forall_mem_cons, Text.unbroken_append, htitle, hfile,
    hauthor.capitalize, hdate, and_true]
  decide

lemma unbroken_classLines (s : Settings) : ∀ line ∈ classLines s, Text.Unbroken line := by
  have htitle := unbroken_title s.name
  -- A comment is cut into words and wrapped, so the breaks in it do not matter.
  have hcomment : ∀ comment, ∀ line ∈ docstring comment, Text.Unbroken line := by
    intro comment line hline
    obtain ⟨text, htext, opening, hopening, closing, hclosing, rfl⟩ :=
      exists_frames_of_mem_docstring hline
    have hmark : ∀ mark ∈ ["", docstringMark], Text.Unbroken mark := by decide
    simp only [Text.unbroken_append, hmark opening hopening, hmark closing hclosing,
      Text.unbroken_of_mem_wrap htext, and_true]
    decide
  have hclass : ∀ line ∈ ["", "", "class " ++ title s.name ++ ":"], Text.Unbroken line := by
    simp only [List.forall_mem_cons, Text.unbroken_append, htitle]
    decide
  unfold classLines
  rw [List.forall_mem_append, List.forall_mem_append]
  refine ⟨⟨hclass, ?_⟩, by decide⟩
  cases s.comment with
  | none => simp
  | some comment => exact hcomment comment

lemma unbroken_constructorLines {names : List String} (h : ∀ name ∈ names, Text.Unbroken name) :
    ∀ line ∈ constructorLines names, Text.Unbroken line := by
  have hself : ∀ name ∈ "self" :: names, Text.Unbroken name :=
    List.forall_mem_cons.2 ⟨by decide, h⟩
  have hsignature : Text.Unbroken (signatureLine names) := by
    simp only [signatureLine, Text.unbroken_append]
    exact ⟨⟨by decide, (Text.unbroken_intercalate (by decide) _).2 hself⟩, by decide⟩
  rw [constructorLines_eq, List.forall_mem_cons]
  refine ⟨hsignature, ?_⟩
  split
  · decide
  · rw [List.forall_mem_map]
    intro name hname
    simp only [memberLine, Text.unbroken_append, h name hname, and_true]
    decide

lemma unbroken_buildLines (hlines : ∀ line ∈ c.lines, Text.Unbroken line)
    (hendpoints : ∀ var ∈ c.endpoints, Text.Unbroken var) :
    ∀ line ∈ buildLines c, Text.Unbroken line := by
  have hreturn : Text.Unbroken (tab ++ tab ++ "return " ++ ", ".intercalate c.endpoints) := by
    rw [Text.unbroken_append, Text.unbroken_intercalate (by decide)]
    exact ⟨by decide, hendpoints⟩
  simp only [buildLines, List.forall_mem_append, List.forall_mem_cons, List.forall_mem_map]
  refine ⟨⟨by decide, fun line hline => ?_⟩, by decide, hreturn.trimEnd, by simp⟩
  simp only [Text.unbroken_append, hlines line hline, and_true]
  decide

/-- **The lines of a module are unbroken** if the author and the date are, and if no line break is in
what the document has written as it stands, nor in a statement. -/
theorem unbroken_moduleLines {nodes : List Entity} {uses : List Use} (hnodes : Emission d nodes c)
    (hreads : ReadsStatements d (nodes.map Entity.id) c.statements uses)
    (hsources : c.sources = (groups uses).eraseDups)
    (hplaceholders : c.placeholders = (parameters uses).eraseDups) (hd : d.PlainlyUnbroken)
    (hlines : ∀ line ∈ c.lines, Text.Unbroken line) {s : Settings} {date : String}
    (hauthor : Text.Unbroken s.author) (hdate : Text.Unbroken date) :
    ∀ line ∈ moduleLines s date c, Text.Unbroken line := by
  have huses := hreads.unbroken_uses hd hnodes.unbroken_source
  -- An import line is as unbroken as the group that it names, and groups are read from the
  -- document.
  have himports : ∀ line ∈ c.sources.map importLine, Text.Unbroken line := by
    rw [List.forall_mem_map, hsources]
    intro source hsource
    rw [List.mem_eraseDups, mem_groups_iff] at hsource
    exact Text.unbroken_append.2 ⟨by decide, huses _ hsource⟩
  have hparameters : ∀ name ∈ c.placeholders, Text.Unbroken name := by
    rw [hplaceholders]
    intro name hname
    rw [List.mem_eraseDups, mem_parameters_iff] at hname
    exact huses _ hname
  rw [moduleLines_eq]
  simp only [List.forall_mem_append]
  exact ⟨⟨⟨⟨unbroken_headerLines s hauthor hdate, himports⟩, unbroken_classLines s⟩,
    unbroken_constructorLines hparameters⟩,
    unbroken_buildLines hlines (hnodes.unbroken_endpoints hd)⟩

/-- **Imports and parameters are exact.**  The statements of a compilation are those of distinct
nodes, and reading them in order, each from left to right, meets a list of uses.  The import groups
and the constructor parameters of the compilation are these uses without repetitions, in the order
in which they are met first.  So in every module that is written for the compilation each group
that is used is imported once, each member that is used is set once from a parameter, and there is
no other import and no other parameter.  This holds of the lines of which the text of the module is
made.  It holds of the lines into which the text is cut at line breaks, if none comes from outside:
neither with the author nor with the date, and neither with what the document has written as it
stands nor with what it has quoted. -/
theorem uses_supplied_once (d : Document) (c : Compilation) (h : compile d = .ok c) :
    ∃ nodes uses, Emission d nodes c ∧
      ReadsStatements d (nodes.map Entity.id) c.statements uses ∧
      c.sources = (groups uses).eraseDups ∧
      c.placeholders = (parameters uses).eraseDups ∧
      ∀ (s : Settings) (date : String),
        moduleText s date c = "\n".intercalate (moduleLines s date c) ++ "\n" ∧
        Supplies uses (moduleLines s date c) ∧
        (Text.Unbroken s.author → Text.Unbroken date → d.PlainlyUnbroken →
          (∀ e ∈ nodes, QuotesUnbroken d e) →
          Text.physicalLines (moduleText s date c) = moduleLines s date c ++ [""] ∧
          Supplies uses (Text.physicalLines (moduleText s date c))) := by
  obtain ⟨t, hreached, rfl⟩ := exists_reached_of_compile h
  obtain ⟨nodes, hnodes⟩ := hreached.transcribes
  obtain ⟨uses, hreads, hscope⟩ := hreached.traces
  rw [hnodes.emitted] at hreads
  have hemission := hnodes.emission hreached.joined.nodup
  refine ⟨nodes, uses, hemission, hreads, hscope.sources, hscope.placeholders, fun s date => ?_⟩
  have hsupplies : Supplies uses (moduleLines s date (t.finish d)) :=
    supplies_moduleLines hscope.sources hscope.placeholders s date
  refine ⟨rfl, hsupplies, fun hauthor hdate hd hquotes => ?_⟩
  -- Under the condition on the quoted texts every statement is one line.
  have hlines : ∀ line ∈ (t.finish d).lines, Text.Unbroken line :=
    List.forall_mem_map.2 ((hreached.forall_unbroken_iff hnodes hd).2 hquotes)
  have hunbroken : ∀ line ∈ moduleLines s date (t.finish d), Text.Unbroken line :=
    unbroken_moduleLines hemission hreads hscope.sources hscope.placeholders hd hlines hauthor hdate
  have hread : Text.physicalLines (moduleText s date (t.finish d)) =
      moduleLines s date (t.finish d) ++ [""] := by
    rw [physicalLines_moduleText, Text.flatMap_physicalLines_eq_self_iff.2 hunbroken]
  exact ⟨hread, hread ▸ hsupplies.concat_empty⟩

/-- The unit and the placeholder of `sharing` are met inside the second statement and again in the
third, where nothing is rendered for them.  Nothing in it has a line break. -/
theorem uses_supplied_once_sharing :
    sharing.PlainlyUnbroken ∧ ∃ c, compile sharing = .ok c ∧
      c.sources = ["layers", "initializers", "models"] ∧ c.placeholders = ["seed"] ∧
      ∃ nodes uses, Emission sharing nodes c ∧
        ReadsStatements sharing (nodes.map Entity.id) c.statements uses ∧
        c.sources = (groups uses).eraseDups ∧
        c.placeholders = (parameters uses).eraseDups ∧
        Supplies uses (Text.physicalLines (moduleText {} "24/01/31" c)) ∧
        (Text.physicalLines (moduleText {} "24/01/31" c)).filter isImportLine =
          ["from keras import layers", "from keras import initializers",
            "from keras import models"] := by
  have hrun : (evaluate sharing 12 7).map (fun c => (c.sources, c.placeholders)) =
      some (["layers", "initializers", "models"], ["seed"]) := by
    decide +kernel
  obtain ⟨c, hc, hrecord⟩ := Option.map_eq_some_iff.1 hrun
  have hcompile : compile sharing = .ok c := compile_of_evaluate (by cbv) hc
  have hsources : c.sources = ["layers", "initializers", "models"] := congrArg Prod.fst hrecord
  have hplain : sharing.PlainlyUnbroken := by decide +kernel
  have hquoted : ∀ e ∈ sharing.entities, ∀ item ∈ quotedItems e.args, Text.Unbroken item := by
    decide +kernel
  obtain ⟨nodes, uses, hnodes, hreads, hgroups, hparameters, hmodule⟩ :=
    uses_supplied_once sharing c hcompile
  obtain ⟨-, -, hlines⟩ := hmodule {} "24/01/31"
  obtain ⟨-, hsupplies⟩ := hlines (by decide) (by decide) hplain fun e he =>
    quotesUnbroken_of_forall hquoted (hnodes.mem_entities e he)
  refine ⟨hplain, c, hcompile, hsources, congrArg Prod.snd hrecord, nodes, uses, hnodes, hreads,
    hgroups, hparameters, hsupplies, ?_⟩
  rw [hsupplies.imports, ← hgroups, hsources]
  decide

end Module

end NetDiagram
