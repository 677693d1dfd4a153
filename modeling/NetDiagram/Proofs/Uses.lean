import Mathlib.Data.List.Count
import NetDiagram.Module.Source
import NetDiagram.Proofs.Transparency

/-!
# What the statements use

A statement needs things from outside the build method: the import group of every call in it, and
the members that the constructor sets for placeholders.  While statements are written, groups and
parameters are recorded as a side effect of rendering, and an expression that is found in the scope
is not rendered again, so nothing is recorded for it.

This file reads the finished statements instead, in order and each from left to right.
`Reads d piece texts uses` says which uses are met in the texts of a piece; what was rendered
before plays no part in it.  The record of a compilation turns out to be the list of these uses
without repetitions, in the order in which they are met first: an expression is found in the scope
only after all its uses were met.

## Main statements

* `Renders.traces`: a rendering extends the history of uses by those of its piece.
* `Walk.Reached.traces`: the scope of a draft has recorded the uses of its statements.
* `Module.supplies_moduleLines`: a module imports and sets what its compilation has recorded, once.
-/

namespace NetDiagram.Flow

/-! ## Uses -/

/-- Something that a statement needs from outside the build method. -/
inductive Use where
  /-- An import group, by a call of one of its classes. -/
  | group (source : String)
  /-- A member of the object, by a placeholder. -/
  | parameter (name : String)
deriving DecidableEq

/-- The import groups among the uses, in order. -/
def groups (uses : List Use) : List String :=
  uses.filterMap fun
    | .group source => some source
    | .parameter _ => none

/-- The members among the uses, in order. -/
def parameters (uses : List Use) : List String :=
  uses.filterMap fun
    | .group _ => none
    | .parameter name => some name

lemma groups_append (xs ys : List Use) : groups (xs ++ ys) = groups xs ++ groups ys :=
  List.filterMap_append

lemma parameters_append (xs ys : List Use) :
    parameters (xs ++ ys) = parameters xs ++ parameters ys :=
  List.filterMap_append

lemma mem_groups_iff {uses : List Use} {source : String} :
    source ∈ groups uses ↔ .group source ∈ uses := by
  unfold groups
  rw [List.mem_filterMap]
  constructor
  · rintro ⟨use, hmem, huse⟩
    cases use with
    | group source' => rwa [← Option.some.inj huse]
    | parameter name => simp at huse
  · intro hmem
    exact ⟨_, hmem, rfl⟩

lemma mem_parameters_iff {uses : List Use} {name : String} :
    name ∈ parameters uses ↔ .parameter name ∈ uses := by
  unfold parameters
  rw [List.mem_filterMap]
  constructor
  · rintro ⟨use, hmem, huse⟩
    cases use with
    | group source => simp at huse
    | parameter name' => rwa [← Option.some.inj huse]
  · intro hmem
    exact ⟨_, hmem, rfl⟩

/-- The texts of a piece, and the uses that are met when they are read from left to right.  A call
names its import group before its arguments. -/
inductive Reads (d : Document) : Piece → List String → List Use → Prop
  | noArgs : Reads d (.args []) [] []
  | arg {a : Argument} {rest : List Argument} {items texts : List String} {uses more : List Use}
      (first : Reads d (.items a (a.items.map Text.trim)) items uses)
      (others : Reads d (.args rest) texts more) :
      Reads d (.args (a :: rest)) ((a.name ++ "=" ++ bracket items) :: texts) (uses ++ more)
  | noItems {a : Argument} : Reads d (.items a []) [] []
  | literal {a : Argument} {item : String} {rest texts : List String} {uses : List Use}
      (kind : a.kind ≠ .id) (others : Reads d (.items a rest) texts uses) :
      Reads d (.items a (item :: rest)) (literalText a.kind item :: texts) uses
  | item {a : Argument} {item text : String} {rest texts : List String} {uses more : List Use}
      (kind : a.kind = .id) (first : Reads d (.reference a (.ofText item)) [text] uses)
      (others : Reads d (.items a rest) texts more) :
      Reads d (.items a (item :: rest)) (text :: texts) (uses ++ more)
  | placeholder {a : Argument} {id : NodeId} {p : Placeholder}
      (get : d.get? id = some (.placeholder p)) :
      Reads d (.reference a id) ["self." ++ p.name] [.parameter p.name]
  | unit {a : Argument} {id : NodeId} {u : UnitSpec} {args : List String} {uses : List Use}
      (get : d.get? id = some (.unit u)) (inner : Reads d (.args u.args) args uses) :
      Reads d (.reference a id) [callText u.source u.className args] (.group u.source :: uses)
  | inline {a : Argument} {id : NodeId} {l : Layer} {args : List String} {uses : List Use}
      (get : d.get? id = some (.layer l)) (mode : l.mode = .ca)
      (inner : Reads d (.args l.args) args uses) :
      Reads d (.reference a id) [callText "layers" l.className args] (.group "layers" :: uses)
  | named {a : Argument} {id : NodeId} {l : Layer} (get : d.get? id = some (.layer l))
      (mode : l.mode ≠ .ca) : Reads d (.reference a id) [l.var] []

/-- The uses that are met when statements are read in order, each from left to right: the import
group of its own class comes first, then those of its arguments. -/
inductive ReadsStatements (d : Document) : List NodeId → List Statement → List Use → Prop
  | nil : ReadsStatements d [] [] []
  | snoc {ids : List NodeId} {statements : List Statement} {uses more : List Use} {id : NodeId}
      {e : Entity} {st : Statement} {texts : List String}
      (before : ReadsStatements d ids statements uses) (get : d.get? id = some e)
      (args : Reads d (.args e.args) texts more) (args_eq : st.args = ", ".intercalate texts) :
      ReadsStatements d (ids ++ [id]) (statements ++ [st]) (uses ++ .group st.source :: more)

variable {d : Document} {trail : List NodeId} {owner : Entity} {piece : Piece}
  {texts : List String} {uses history : List Use}

lemma Reads.of_inlineCall? {a : Argument} {id : NodeId} {e : Entity} {source className : String}
    (hget : d.get? id = some e) (hcall : inlineCall? e = some (source, className))
    (h : Reads d (.args e.args) texts uses) :
    Reads d (.reference a id) [callText source className texts] (.group source :: uses) := by
  cases inlineCall?_eq_some_iff.1 hcall with
  | unit u => exact .unit hget h
  | inline mode => exact .inline hget mode h

/-! ## Lists without repetitions -/

lemma eraseDups_concat (xs : List String) (x : String) :
    (xs ++ [x]).eraseDups = insertNew x xs.eraseDups := by
  rw [List.eraseDups_append]
  unfold insertNew
  by_cases hx : x ∈ xs
  · rw [if_pos (List.mem_eraseDups.2 hx)]
    simp [List.removeAll, hx]
  · rw [if_neg (mt List.mem_eraseDups.1 hx)]
    simp [List.removeAll, hx, List.eraseDups_cons]

lemma eraseDups_append_of_subset {xs ys : List String} (h : ys ⊆ xs) :
    (xs ++ ys).eraseDups = xs.eraseDups := by
  have hnone : ys.removeAll xs = [] := by
    rw [List.removeAll, List.filter_eq_nil_iff]
    intro y hy
    simpa using h hy
  rw [List.eraseDups_append, hnone, List.eraseDups_nil, List.append_nil]

/-! ## Scopes -/

/-- The scope has recorded the uses of the history, in the order in which they were met first, and
the expressions that it knows have no other uses. -/
structure Scope.Traces (d : Document) (history : List Use) (s : Scope) : Prop where
  sources : s.sources = (groups history).eraseDups
  placeholders : s.placeholders = (parameters history).eraseDups
  names : ∀ id text, s.name? id = some text →
    ∃ uses ⊆ history, ∀ a, Reads d (.reference a id) [text] uses

namespace Scope

variable {s s' : Scope}

lemma traces_empty (d : Document) : Traces d [] {} :=
  ⟨rfl, rfl, fun id text h => by simp [name?] at h⟩

lemma Traces.touch (h : s.Traces d history) (source : String) :
    (s.touch source).Traces d (history ++ [.group source]) where
  sources := by
    calc (s.touch source).sources = insertNew source (groups history).eraseDups := by
          rw [← h.sources]
          rfl
      _ = (groups (history ++ [.group source])).eraseDups := by
          rw [groups_append, ← eraseDups_concat]
          rfl
  placeholders := by
    rw [parameters_append]
    exact h.placeholders.trans (by simp [parameters])
  names id text hname := by
    obtain ⟨uses, hsub, hreads⟩ := h.names id text hname
    exact ⟨uses, List.subset_append_of_subset_left _ hsub, hreads⟩

lemma Traces.require (h : s.Traces d history) (name : String) :
    (s.require name).Traces d (history ++ [.parameter name]) where
  sources := by
    rw [groups_append]
    exact h.sources.trans (by simp [groups])
  placeholders := by
    calc (s.require name).placeholders = insertNew name (parameters history).eraseDups := by
          rw [← h.placeholders]
          rfl
      _ = (parameters (history ++ [.parameter name])).eraseDups := by
          rw [parameters_append, ← eraseDups_concat]
          rfl
  names id text hname := by
    obtain ⟨uses, hsub, hreads⟩ := h.names id text hname
    exact ⟨uses, List.subset_append_of_subset_left _ hsub, hreads⟩

/-- An entity gets its expression after all uses of the expression were met. -/
lemma Traces.bind (h : s.Traces d history) {id : NodeId} {text : String}
    (hsub : uses ⊆ history) (hreads : ∀ a, Reads d (.reference a id) [text] uses) :
    (s.bind id text).Traces d history where
  sources := h.sources
  placeholders := h.placeholders
  names x text' hname := by
    rw [name?_bind] at hname
    split at hname
    · rename_i hid
      rw [hid, ← Option.some.inj hname]
      exact ⟨uses, hsub, hreads⟩
    · exact h.names x text' hname

/-- Marks and notices of a scope do not matter. -/
lemma Traces.congr (h : s.Traces d history) (hsources : s'.sources = s.sources)
    (hplaceholders : s'.placeholders = s.placeholders) (hnames : ∀ x, s'.name? x = s.name? x) :
    s'.Traces d history :=
  ⟨hsources.trans h.sources, hplaceholders.trans h.placeholders,
    fun id text hname => h.names id text (by rw [← hnames, hname])⟩

/-- Uses that were met before leave no new record. -/
lemma Traces.again (h : s.Traces d history) (hsub : uses ⊆ history) :
    s.Traces d (history ++ uses) where
  sources := by
    rw [groups_append, eraseDups_append_of_subset]
    · exact h.sources
    · exact fun x hx => mem_groups_iff.2 (hsub (mem_groups_iff.1 hx))
  placeholders := by
    rw [parameters_append, eraseDups_append_of_subset]
    · exact h.placeholders
    · exact fun x hx => mem_parameters_iff.2 (hsub (mem_parameters_iff.1 hx))
  names id text hname := by
    obtain ⟨uses', hsub', hreads⟩ := h.names id text hname
    exact ⟨uses', List.subset_append_of_subset_left _ hsub', hreads⟩

end Scope

/-! ## Renderings -/

/-- **Renderings record what is read.**  A successful rendering adds the uses of its piece to the
history, whether or not they were met before. -/
theorem Renders.traces {s s' : Scope} (h : Renders d trail owner piece s texts s')
    (hs : s.Traces d history) :
    ∃ uses, Reads d piece texts uses ∧ s'.Traces d (history ++ uses) := by
  induction h generalizing history with
  | noArgs => exact ⟨[], .noArgs, by simpa using hs⟩
  | arg _ _ _ ihfirst ihothers =>
    obtain ⟨uses, hfirst, hs₁⟩ := ihfirst hs
    obtain ⟨more, hothers, hs₂⟩ := ihothers hs₁
    exact ⟨uses ++ more, .arg hfirst hothers, by simpa using hs₂⟩
  | noItems => exact ⟨[], .noItems, by simpa using hs⟩
  | literal kind _ ih =>
    obtain ⟨uses, hothers, hs'⟩ := ih hs
    exact ⟨uses, .literal kind hothers, hs'⟩
  | item kind _ _ ihfirst ihothers =>
    obtain ⟨uses, hfirst, hs₁⟩ := ihfirst hs
    obtain ⟨more, hothers, hs₂⟩ := ihothers hs₁
    exact ⟨uses ++ more, .item kind hfirst hothers, by simpa using hs₂⟩
  -- The uses of a text that is known have been met before, so the scope records nothing.
  | known name =>
    obtain ⟨uses, hsub, hreads⟩ := hs.names _ _ name
    exact ⟨uses, hreads _, hs.again hsub⟩
  | @placeholder _ _ _ id s p name get =>
    refine ⟨[.parameter p.name], .placeholder get, ?_⟩
    exact (hs.require p.name).bind (List.subset_append_right _ _) fun _ => .placeholder get
  | @forward _ _ _ _ _ l name get mode =>
    have hne : l.mode ≠ .ca := fun hca => by simp [hca, Mode.isMaterialized] at mode
    refine ⟨[], .named get hne, ?_⟩
    rw [List.append_nil]
    exact hs.congr rfl rfl fun _ => rfl
  | @call _ _ _ id s s₁ target source className args name get inline _ _ ih =>
    -- The group is touched before the arguments are rendered, so it is used first.
    obtain ⟨uses, hinner, hs₁⟩ := ih (hs.touch source)
    rw [List.append_assoc, List.singleton_append] at hs₁
    have hcall := fun a => hinner.of_inlineCall? (a := a) get inline
    refine ⟨.group source :: uses, hcall _, ?_⟩
    exact (hs₁.bind (List.subset_append_right _ _) hcall).congr rfl rfl fun _ => rfl

/-! ## Drafts -/

/-- **The record of a draft.**  The statements of a draft can be read, and its scope has recorded
what they use. -/
theorem Walk.Reached.traces {w : Walk} (h : Walk.Reached d w) :
    ∃ uses, ReadsStatements d w.draft.emitted w.draft.statements uses ∧
      w.draft.scope.Traces d uses := by
  refine h.induction_draft (P := fun t => ∃ uses, ReadsStatements d t.emitted t.statements uses ∧
    t.scope.Traces d uses) ⟨[], .nil, Scope.traces_empty d⟩ fun t t' hstep ht => ?_
  obtain ⟨uses, hreads, hscope⟩ := ht
  cases hstep with
  | idle ledger => exact ⟨uses, hreads, hscope⟩
  | layer hget hmode hr =>
    obtain ⟨more, hargs, hs⟩ := hr.traces (hscope.touch layerSource)
    rw [List.append_assoc, List.singleton_append] at hs
    exact ⟨_, hreads.snoc hget hargs rfl, hs.bind (List.nil_subset _) fun _ => .named hget hmode⟩
  | model hget _ hr =>
    obtain ⟨more, hargs, hs⟩ := hr.traces (hscope.touch modelSource)
    rw [List.append_assoc, List.singleton_append] at hs
    exact ⟨_, hreads.snoc hget hargs rfl, hs⟩

end NetDiagram.Flow

/-! ## Modules -/

namespace NetDiagram.Module

open NetDiagram.Flow (Use groups parameters)

/-- The line that imports a group. -/
def importLine (source : String) : String :=
  "from keras import " ++ source

/-- The line of the constructor that sets a member. -/
def memberLine (name : String) : String :=
  tab ++ tab ++ "self." ++ name ++ " = " ++ name

/-- The line that begins a constructor with the given parameters. -/
def signatureLine (names : List String) : String :=
  tab ++ "def __init__(" ++ ", ".intercalate ("self" :: names) ++ "):"

/-- Whether the line imports something, from wherever. -/
def isImportLine (line : String) : Bool :=
  "from ".toList.isPrefixOf line.toList || "import ".toList.isPrefixOf line.toList

/-- The lines of a module have an import for every group that is used, in the order of first use,
and no other import; its constructor, which the build method follows, has a parameter, and sets a
member, once if it is used, and not at all otherwise. -/
structure Supplies (uses : List Use) (lines : List String) : Prop where
  imports : lines.filter isImportLine = (groups uses).eraseDups.map importLine
  importedOnce : ∀ source, lines.count (importLine source) = if .group source ∈ uses then 1 else 0
  members : ∃ before names after,
    lines = before ++ constructorLines names ++ ["", tab ++ "def build(self):"] ++ after ∧
    (constructorLines names).head? = some (signatureLine names) ∧
    (∀ name, names.count name = if .parameter name ∈ uses then 1 else 0) ∧
    ∀ name, (constructorLines names).count (memberLine name) =
      if .parameter name ∈ uses then 1 else 0

lemma importLine_injective : Function.Injective importLine :=
  fun _ _ h => (String.append_right_inj _).1 h

lemma memberLine_injective : Function.Injective memberLine := by
  intro x y h
  have hlist := congrArg String.toList h
  simp only [memberLine, String.toList_append, List.append_assoc,
    List.append_cancel_left_eq] at hlist
  -- Both sides hold their name twice, so the names have the same length.
  have hlength := congrArg List.length hlist
  simp only [List.length_append] at hlength
  exact String.toList_inj.1 (List.append_inj hlist (by omega)).1

/-! ### Import lines -/

lemma isImportLine_importLine (source : String) : isImportLine (importLine source) = true := by
  have hopen : "from ".toList <+: "from keras import ".toList := by decide
  have hline : "from keras import ".toList <+: (importLine source).toList :=
    ⟨source.toList, String.toList_append.symm⟩
  rw [isImportLine, List.isPrefixOf_iff_prefix.2 (hopen.trans hline), Bool.true_or]

/-- The line begins as no import does. -/
def OpensOtherwise (line : String) : Prop :=
  line.toList.head? ≠ some 'f' ∧ line.toList.head? ≠ some 'i'

lemma OpensOtherwise.isImportLine_eq_false {line : String} (h : OpensOtherwise line) :
    isImportLine line = false := by
  obtain ⟨hf, hi⟩ := h
  cases hline : line.toList with
  | nil => simp [isImportLine, hline]
  | cons c cs =>
    rw [hline, List.head?_cons] at hf hi
    have hf' : ('f' == c) = false := by simpa using fun h => hf (congrArg some h.symm)
    have hi' : ('i' == c) = false := by simpa using fun h => hi (congrArg some h.symm)
    simp [isImportLine, hline, List.isPrefixOf_cons_cons, hf', hi']

lemma opensOtherwise_tab_append (text : String) : OpensOtherwise (tab ++ text) := by
  simp [OpensOtherwise, tab]

lemma opensOtherwise_headerLines (title author date : String) :
    ∀ line ∈ headerLines title author date, OpensOtherwise line := by
  simp [OpensOtherwise, headerLines]

lemma opensOtherwise_docstring (comment : String) :
    ∀ line ∈ docstring comment, OpensOtherwise line := by
  intro line hline
  obtain ⟨text, -, rfl⟩ := List.mem_map.1 hline
  exact opensOtherwise_tab_append text

lemma head?_trimEnd {text : String} {c : Char} (h : text.toList.head? ≠ some c) :
    (Text.trimEnd text).toList.head? ≠ some c := by
  intro htrim
  rw [Text.trimEnd, String.toList_ofList] at htrim
  obtain ⟨rest, hrest⟩ := Text.dropTrailing_isPrefix Text.isBlank text.toList
  rw [← hrest, List.head?_append, htrim] at h
  exact h rfl

/-- A constructor begins with its signature; without parameters it has nothing to do. -/
lemma constructorLines_eq (names : List String) :
    constructorLines names = signatureLine names ::
      if names = [] then [tab ++ tab ++ "pass"] else names.map memberLine := by
  cases names with
  | nil => rfl
  | cons name rest =>
    have hopen : "def __init__(self, " = "def __init__(" ++ ("self" ++ ", ") := by decide
    have hsignature : signatureLine (name :: rest) =
        tab ++ "def __init__(self, " ++ ", ".intercalate (name :: rest) ++ "):" := by
      rw [signatureLine, String.intercalate_cons_cons, hopen]
      simp only [String.append_assoc]
    rw [if_neg (by simp), hsignature]
    rfl

lemma opensOtherwise_constructorLines (names : List String) :
    ∀ line ∈ constructorLines names, OpensOtherwise line := by
  intro line hline
  obtain ⟨text, rfl⟩ : ∃ text, line = tab ++ text := by
    rw [constructorLines_eq, List.mem_cons] at hline
    rcases hline with rfl | hline
    · exact ⟨_, String.append_assoc.trans String.append_assoc⟩
    · split at hline
      · exact ⟨_, (List.mem_singleton.1 hline).trans String.append_assoc⟩
      · obtain ⟨name, -, rfl⟩ := List.mem_map.1 hline
        simp only [memberLine, String.append_assoc]
        exact ⟨_, rfl⟩
  exact opensOtherwise_tab_append text

/-- The lines of a module up to its constructor, its imports left out. -/
def classLines (s : Settings) : List String :=
  ["", "", "class " ++ title s.name ++ ":"] ++
    (match s.comment with
      | some comment => docstring comment
      | none => []) ++
    [""]

/-- The lines of a module after its constructor. -/
def buildLines (c : Flow.Compilation) : List String :=
  ["", tab ++ "def build(self):"] ++ c.lines.map (tab ++ tab ++ ·) ++
    ["", Text.trimEnd (tab ++ tab ++ "return " ++ ", ".intercalate c.endpoints)]

lemma moduleLines_eq (s : Settings) (date : String) (c : Flow.Compilation) :
    moduleLines s date c =
      headerLines (title s.name) (Text.capitalize s.author) date ++ c.sources.map importLine ++
        classLines s ++ constructorLines c.placeholders ++ buildLines c := by
  simp only [moduleLines, classLines, buildLines, List.append_assoc]
  rfl

lemma opensOtherwise_classLines (s : Settings) : ∀ line ∈ classLines s, OpensOtherwise line := by
  intro line hline
  have hclass : ∀ line ∈ ["", "", "class " ++ title s.name ++ ":"], OpensOtherwise line := by
    simp [OpensOtherwise]
  rcases List.mem_append.1 hline with hline | hline
  · rcases List.mem_append.1 hline with hline | hline
    · exact hclass line hline
    · cases hcomment : s.comment with
      | none => simp [hcomment] at hline
      | some comment =>
        rw [hcomment] at hline
        exact opensOtherwise_docstring comment line hline
  · simp [List.mem_singleton.1 hline, OpensOtherwise]

lemma opensOtherwise_buildLines (c : Flow.Compilation) :
    ∀ line ∈ buildLines c, OpensOtherwise line := by
  intro line hline
  rcases List.mem_append.1 hline with hline | hline
  · rcases List.mem_append.1 hline with hline | hline
    · rcases List.mem_pair.1 hline with rfl | rfl
      · simp [OpensOtherwise]
      · exact opensOtherwise_tab_append _
    · obtain ⟨text, -, rfl⟩ := List.mem_map.1 hline
      rw [String.append_assoc]
      exact opensOtherwise_tab_append _
  · rcases List.mem_pair.1 hline with rfl | rfl
    · simp [OpensOtherwise]
    · rw [String.append_assoc, String.append_assoc]
      exact (opensOtherwise_tab_append _).imp head?_trimEnd head?_trimEnd

lemma filter_isImportLine_moduleLines (s : Settings) (date : String) (c : Flow.Compilation) :
    (moduleLines s date c).filter isImportLine = c.sources.map importLine := by
  have hnone : ∀ lines : List String, (∀ line ∈ lines, OpensOtherwise line) →
      lines.filter isImportLine = [] := fun lines hlines =>
    List.filter_eq_nil_iff.2 fun line hline => by simp [(hlines line hline).isImportLine_eq_false]
  have hall : (c.sources.map importLine).filter isImportLine = c.sources.map importLine :=
    List.filter_eq_self.2 (List.forall_mem_map.2 fun source _ => isImportLine_importLine source)
  rw [moduleLines_eq]
  simp only [List.filter_append, hall, hnone _ (opensOtherwise_headerLines _ _ _),
    hnone _ (opensOtherwise_classLines s), hnone _ (opensOtherwise_constructorLines _),
    hnone _ (opensOtherwise_buildLines c), List.nil_append, List.append_nil]

/-! ### Member lines -/

lemma count_memberLine_constructorLines (names : List String) (name : String) :
    (constructorLines names).count (memberLine name) = names.count name := by
  have hsignature : signatureLine names ≠ memberLine name := by
    intro h
    have hlist := congrArg (fun line => line.toList.drop 4 |>.head?) h
    simp [signatureLine, memberLine, tab] at hlist
  rw [constructorLines_eq, List.count_cons_of_ne hsignature]
  split
  · rename_i hnames
    have hpass : tab ++ tab ++ "pass" ≠ memberLine name := by
      intro h
      have hlist := congrArg (fun line => line.toList.drop 8 |>.head?) h
      simp [memberLine, tab] at hlist
    rw [hnames, List.count_singleton, if_neg (by simpa using hpass), List.count_nil]
  · exact List.count_map_of_injective names memberLine memberLine_injective name

lemma count_eraseDups (xs : List String) (x : String) :
    xs.eraseDups.count x = if x ∈ xs then 1 else 0 := by
  rw [(Flow.nodup_eraseDups xs).count]
  simp only [List.mem_eraseDups]

lemma importedOnce_of_filter {uses : List Use} {lines : List String}
    (h : lines.filter isImportLine = (groups uses).eraseDups.map importLine) (source : String) :
    lines.count (importLine source) = if .group source ∈ uses then 1 else 0 := by
  rw [← List.count_filter (isImportLine_importLine source), h,
    List.count_map_of_injective _ importLine importLine_injective, count_eraseDups]
  simp only [Flow.mem_groups_iff]

/-- A module of a compilation that has recorded the uses without repetitions supplies them. -/
lemma supplies_moduleLines {c : Flow.Compilation} {uses : List Use}
    (hsources : c.sources = (groups uses).eraseDups)
    (hplaceholders : c.placeholders = (parameters uses).eraseDups) (s : Settings) (date : String) :
    Supplies uses (moduleLines s date c) where
  imports := by rw [filter_isImportLine_moduleLines, hsources]
  importedOnce := importedOnce_of_filter (by rw [filter_isImportLine_moduleLines, hsources])
  members := by
    have hcount : ∀ name, c.placeholders.count name = if .parameter name ∈ uses then 1 else 0 := by
      intro name
      rw [hplaceholders, count_eraseDups]
      simp only [Flow.mem_parameters_iff]
    -- The constructor is followed by the build method, which is how its end is found.
    have hlines : ∃ after, moduleLines s date c =
        headerLines (title s.name) (Text.capitalize s.author) date ++ c.sources.map importLine ++
          classLines s ++ constructorLines c.placeholders ++ ["", tab ++ "def build(self):"] ++
          after := by
      rw [moduleLines_eq, buildLines, List.append_assoc ["", _], ← List.append_assoc]
      exact ⟨_, rfl⟩
    obtain ⟨after, hlines⟩ := hlines
    refine ⟨_, c.placeholders, after, hlines, ?_, hcount, fun name => ?_⟩
    · rw [constructorLines_eq, List.head?_cons]
    · rw [count_memberLine_constructorLines, hcount]

lemma Supplies.concat_empty {uses : List Use} {lines : List String} (h : Supplies uses lines) :
    Supplies uses (lines ++ [""]) := by
  have hempty : [""].filter isImportLine = [] := by decide
  have himports : (lines ++ [""]).filter isImportLine = (groups uses).eraseDups.map importLine := by
    rw [List.filter_append, hempty, List.append_nil, h.imports]
  obtain ⟨before, names, after, hlines, hfacts⟩ := h.members
  refine ⟨himports, importedOnce_of_filter himports, before, names, after ++ [""], ?_, hfacts⟩
  rw [hlines, List.append_assoc]

end NetDiagram.Module
