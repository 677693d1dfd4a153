import Mathlib.Data.List.Chain
import NetDiagram.Proofs.Emission
import NetDiagram.Proofs.LineBreaks
import NetDiagram.Proofs.Titles

/-!
# The header comment

A module begins with a comment that names its file, its author and its class.  The name of the
class has only letters, digits and underscores, but the author is written as it is, apart from the
case of its letters.  A line break in it ends the comment, and what follows stands in the module as
a line of its own.

This file shows when the header is a comment: exactly if every line break of the author is followed
by another one or by the character that begins a comment.  Changing the case of letters plays no
part in this, since it keeps all these characters and makes none of them.

## Main statements

* `Text.keeps_upper`, `Text.keeps_lower`: a case mapping keeps line breaks and comment signs.
* `Text.isComment_physicalLines_iff`: when all lines but the first are comments.
* `Module.header_comment_iff`: when the lines before the first import are a comment.
-/

namespace NetDiagram

namespace Text

/-! ## Comments and line breaks -/

/-- The line is empty or a comment. -/
def IsComment (line : String) : Prop :=
  line = "" ∨ line.toList.head? = some '#'

/-- The characters that may stand behind a line break: another one, or the sign of a comment. -/
def opensComment (c : Char) : Bool :=
  isBreak c || c == '#'

/-- Behind every line break there is nothing, another one, or the sign of a comment. -/
def Commented (cs : List Char) : Prop :=
  cs.IsChain fun b c => isBreak b → opensComment c

instance : DecidablePred Commented := fun cs =>
  inferInstanceAs (Decidable (cs.IsChain fun b c => isBreak b → opensComment c))

lemma isComment_ofList_iff {cs : List Char} :
    IsComment (String.ofList cs) ↔ ∀ c ∈ cs.head?, c = '#' := by
  cases cs with
  | nil => simp [IsComment]
  | cons c cs => simp [IsComment]

lemma commented_cons_iff {c : Char} {cs : List Char} :
    Commented (c :: cs) ↔ (isBreak c → ∀ x ∈ cs.head?, opensComment x) ∧ Commented cs := by
  rw [Commented, List.isChain_cons]
  exact and_congr_left fun _ => ⟨fun h hc x hx => h x hx hc, fun h x hx hc => h hc x hx⟩

lemma forall_segments_iff (cs : List Char) :
    (∀ piece ∈ segments isBreak cs, ∀ c ∈ piece.head?, c = '#') ↔
      (∀ c ∈ cs.head?, opensComment c) ∧
        ∀ piece ∈ (segments isBreak cs).tail, ∀ c ∈ piece.head?, c = '#' := by
  cases cs with
  | nil => simp [segments]
  | cons c cs =>
    cases hc : isBreak c with
    | true => simp [segments_cons_of_pos hc, opensComment, hc]
    | false =>
      obtain ⟨first, rest, -, hsegments⟩ := exists_segments_cons_of_neg hc cs
      simp [hsegments, opensComment, hc]

/-- **When all lines but the first are comments.** -/
theorem isComment_physicalLines_iff (s : String) :
    (∀ line ∈ (physicalLines s).tail, IsComment line) ↔ Commented s.toList := by
  have hpieces : ∀ cs : List Char,
      (∀ piece ∈ (segments isBreak cs).tail, ∀ c ∈ piece.head?, c = '#') ↔ Commented cs := by
    intro cs
    induction cs with
    | nil => simp [segments, Commented]
    | cons c cs ih =>
      rw [commented_cons_iff, ← ih]
      cases hc : isBreak c with
      | true =>
        rw [segments_cons_of_pos hc, List.tail_cons, forall_segments_iff]
        simp
      | false =>
        obtain ⟨first, rest, hcs, hsegments⟩ := exists_segments_cons_of_neg hc cs
        simp [hcs, hsegments]
  rw [← hpieces, physicalLines, ← List.map_tail, List.forall_mem_map]
  simp only [isComment_ofList_iff]

lemma commented_append_iff {t cs : List Char} (h : ∀ c ∈ t, isBreak c = false) :
    Commented (t ++ cs) ↔ Commented cs := by
  induction t with
  | nil => rfl
  | cons c t ih =>
    rw [List.forall_mem_cons] at h
    rw [List.cons_append, commented_cons_iff, ih h.2]
    simp [h.1]

/-! ## Case mappings -/

/-- The image is the character itself, or neither has to do with line breaks and comments. -/
def Keeps (image : List Char) (c : Char) : Prop :=
  image = [c] ∨ image ≠ [] ∧ ∀ x ∈ c :: image, opensComment x = false

lemma opensComment_of_toNat {c : Char} (h : c.toNat = 0 ∨ 35 < c.toNat) :
    opensComment c = false := by
  have hne : ∀ x : Char, 0 < x.toNat → x.toNat ≤ 35 → c ≠ x := by
    rintro x hpos hle rfl
    omega
  simp [opensComment, isBreak, hne '\n' (by decide) (by decide), hne '\r' (by decide) (by decide),
    hne '#' (by decide) (by decide)]

lemma opensComment_ofNat {n : Nat} (h : 35 < n) : opensComment (Char.ofNat n) = false := by
  refine opensComment_of_toNat ?_
  rcases toNat_ofNat_cases n with hvalue | hvalue
  · exact Or.inr (hvalue.symm ▸ h)
  · exact Or.inl hvalue

/-- The tables change nothing up to the sign of a comment, and lead to nothing there. -/
lemma keeps_caseImage {expansions : List (Nat × List Nat)} {runs : List CaseRun}
    (h : ∀ e ∈ caseEntries expansions runs, 35 < e.1 ∧ e.2 ≠ [] ∧ ∀ n ∈ e.2, 35 < n) (c : Char) :
    Keeps (caseImage expansions runs c) c := by
  rcases caseImage_cases expansions runs c with hself | ⟨e, he, hc, himage⟩
  · exact Or.inl hself
  · obtain ⟨hsource, hne, hpoints⟩ := h e he
    rw [hc] at hsource
    rw [himage]
    refine Or.inr ⟨by simpa using hne, ?_⟩
    rw [List.forall_mem_cons, List.forall_mem_map]
    exact ⟨opensComment_of_toNat (Or.inr hsource), fun n hn => opensComment_ofNat (hpoints n hn)⟩

lemma keeps_upper (c : Char) : Keeps (upper c) c :=
  keeps_caseImage (by decide +kernel) c

lemma keeps_lower (c : Char) : Keeps (lower c) c :=
  keeps_caseImage (by decide +kernel) c

lemma Keeps.isBreak_eq_false {image : List Char} {c x : Char} (h : Keeps image c)
    (hc : isBreak c = false) (hx : x ∈ image) : isBreak x = false := by
  rcases h with rfl | ⟨-, hplain⟩
  · rwa [List.mem_singleton.1 hx]
  · have hopens := hplain x (List.mem_cons_of_mem _ hx)
    simp only [opensComment, Bool.or_eq_false_iff] at hopens
    exact hopens.1

lemma Unbroken.capitalize {s : String} (h : Unbroken s) : Unbroken (capitalize s) := by
  intro x hx
  rw [Text.capitalize, String.toList_ofList] at hx
  cases hs : s.toList with
  | nil => simp [hs, capitalizeChars] at hx
  | cons c cs =>
    rw [hs, capitalizeChars, List.mem_append, List.mem_flatMap] at hx
    rcases hx with hx | ⟨c', hc', hx⟩
    · exact (keeps_upper c).isBreak_eq_false (h c (by simp [hs])) hx
    · exact (keeps_lower c').isBreak_eq_false (h c' (by simp [hs, hc'])) hx

/-- The same line breaks and comments. -/
structure SameComments (cs ds : List Char) : Prop where
  commented : Commented cs ↔ Commented ds
  opens : (∀ c ∈ cs.head?, opensComment c) ↔ ∀ c ∈ ds.head?, opensComment c

lemma Keeps.sameComments {image cs ds : List Char} {c : Char} (h : Keeps image c)
    (hrest : SameComments cs ds) : SameComments (image ++ cs) (c :: ds) := by
  rcases h with rfl | ⟨hne, hplain⟩
  · refine ⟨?_, by simp⟩
    rw [List.singleton_append, commented_cons_iff, commented_cons_iff, hrest.commented, hrest.opens]
  · rw [List.forall_mem_cons] at hplain
    have hbreak : ∀ x, opensComment x = false → isBreak x = false := by
      intro x hx
      simp_all [opensComment]
    constructor
    · rw [commented_append_iff fun x hx => hbreak x (hplain.2 x hx), commented_cons_iff,
        hrest.commented]
      simp [hbreak c hplain.1]
    · obtain ⟨x, xs, rfl⟩ := List.exists_cons_of_ne_nil hne
      simp [hplain.1, hplain.2 x]

lemma sameComments_capitalizeChars (cs rest : List Char) :
    SameComments (capitalizeChars cs ++ rest) (cs ++ rest) := by
  have hlower : ∀ cs : List Char, SameComments (cs.flatMap lower ++ rest) (cs ++ rest) := by
    intro cs
    induction cs with
    | nil => exact ⟨Iff.rfl, Iff.rfl⟩
    | cons c cs ih =>
      rw [List.flatMap_cons, List.append_assoc, List.cons_append]
      exact (keeps_lower c).sameComments ih
  cases cs with
  | nil => exact ⟨Iff.rfl, Iff.rfl⟩
  | cons c cs =>
    rw [capitalizeChars, List.append_assoc, List.cons_append]
    exact (keeps_upper c).sameComments (hlower cs)

end Text

namespace Module

open NetDiagram.Flow

/-! ## The lines of the header -/

lemma unbroken_title (name : String) : Text.Unbroken (title name) := by
  intro c hc
  have hword := isTitleChar_of_mem_title hc
  rw [Bool.eq_false_iff]
  intro hbreak
  simp only [Text.isBreak, Bool.or_eq_true, beq_iff_eq] at hbreak
  rcases hbreak with rfl | rfl
  · simp [isTitleChar_eq_false] at hword
  · simp [isTitleChar_eq_false] at hword

lemma unbroken_fileName {title : String} (h : Text.Unbroken title) :
    Text.Unbroken (fileName title) := by
  have hlower : Text.Unbroken (Text.lowercase title) := by
    intro x hx
    rw [Text.lowercase, String.toList_ofList] at hx
    obtain ⟨c, hc, hx⟩ := List.mem_flatMap.1 hx
    exact (Text.keeps_lower c).isBreak_eq_false (h c hc) hx
  exact Text.unbroken_append.2 ⟨hlower, by decide⟩

/-- The header of a module as it is read. -/
def header (s : Settings) (date : String) : List String :=
  (headerLines (title s.name) (Text.capitalize s.author) date).flatMap Text.physicalLines

/-- The line of the author, which is the only one that may be broken. -/
lemma isComment_authorLine_iff {author date : String} (hdate : Text.Unbroken date) :
    (∀ line ∈ Text.physicalLines ("# Created by " ++ Text.capitalize author ++ " on " ++ date),
      Text.IsComment line) ↔ Text.Commented (author.toList ++ [' ']) := by
  have hassoc : "# Created by " ++ Text.capitalize author ++ " on " ++ date =
      "# Created by " ++ (Text.capitalize author ++ (" on " ++ date)) := by
    simp only [String.append_assoc]
  have hprefix : Text.Unbroken "# Created by " := by decide
  have hsuffix : Text.Unbroken (" on " ++ date) :=
    Text.unbroken_append.2 ⟨by decide, hdate⟩
  -- What follows the author has no line break, so it does not matter what it begins with.
  have hrest : Text.Commented (' ' :: ("on " ++ date).toList) := by
    have hlist : (" on " ++ date).toList = ' ' :: ("on " ++ date).toList := by simp
    rw [← hlist, ← List.append_nil (String.toList _), Text.commented_append_iff hsuffix]
    exact .nil
  have hcommented : Text.Commented ("# Created by " ++ (Text.capitalize author ++
      (" on " ++ date))).toList ↔ Text.Commented (author.toList ++ [' ']) := by
    have hlist : ("# Created by " ++ (Text.capitalize author ++ (" on " ++ date))).toList =
        "# Created by ".toList ++
          (Text.capitalizeChars author.toList ++ ' ' :: ("on " ++ date).toList) := by
      simp [Text.capitalize]
    rw [hlist, Text.commented_append_iff hprefix,
      (Text.sameComments_capitalizeChars _ _).commented]
    exact List.isChain_split.trans (and_iff_left hrest)
  obtain ⟨first, rest, -, hlines⟩ :=
    Text.exists_physicalLines_append hprefix (Text.capitalize author ++ (" on " ++ date))
  have hfirst : Text.IsComment ("# Created by " ++ first) := Or.inr (by simp)
  rw [hassoc, ← hcommented, ← Text.isComment_physicalLines_iff, hlines, List.forall_mem_cons,
    List.tail_cons]
  exact and_iff_right hfirst

/-- **When the header is a comment.** -/
theorem isComment_header_iff (s : Settings) {date : String} (hdate : Text.Unbroken date) :
    (∀ line ∈ header s date, Text.IsComment line) ↔ Text.Commented (s.author.toList ++ [' ']) := by
  -- Of all the lines only that of the author can have a line break.
  have hlines : ∀ line, Text.Unbroken line → Text.IsComment line →
      ∀ piece ∈ Text.physicalLines line, Text.IsComment piece := by
    intro line hline hcomment
    rw [Text.physicalLines_of_unbroken hline, List.forall_mem_singleton]
    exact hcomment
  have htitle := unbroken_title s.name
  have hfile := hlines ("# " ++ fileName (title s.name))
    (Text.unbroken_append.2 ⟨by decide, unbroken_fileName htitle⟩) (Or.inr (by simp))
  have hbuilt := hlines ("# " ++ title s.name ++ " was built with Karken: KMB")
    (by simp only [Text.unbroken_append, htitle]; decide) (Or.inr (by simp))
  have hcoding := hlines "# -*- coding: utf-8 -*-" (by decide) (Or.inr rfl)
  have hsign := hlines "#" (by decide) (Or.inr rfl)
  have htool := hlines "# A Keras Model Builder Tool." (by decide) (Or.inr rfl)
  have hempty := hlines "" (by decide) (Or.inl rfl)
  rw [← isComment_authorLine_iff hdate, header, headerLines]
  simp only [List.flatMap_cons, List.flatMap_nil, List.append_nil, List.forall_mem_append]
  exact ⟨fun h => h.2.2.2.1,
    fun h => ⟨hcoding, hsign, hfile, h, hsign, hbuilt, htool, hsign, hempty⟩⟩

/-! ## The first import -/

/-- Whether the line imports something. -/
def isImport (line : String) : Bool :=
  "from keras import ".toList.isPrefixOf line.toList

lemma isImport_eq_false_of_isComment {line : String} (h : Text.IsComment line) :
    isImport line = false := by
  rcases h with rfl | h
  · decide
  · rw [isImport, Bool.eq_false_iff, ne_eq, List.isPrefixOf_iff_prefix]
    rintro ⟨rest, hrest⟩
    rw [← hrest] at h
    simp at h

/-- A compilation has at least one statement, and each statement is of a group. -/
lemma sources_ne_nil_of_compile {d : Document} {c : Compilation} (h : compile d = .ok c) :
    c.sources ≠ [] := by
  have hentrances : d.entrances ≠ [] := by
    intro hnil
    simp [compile, validate, hnil] at h
  obtain ⟨l, hl⟩ := List.exists_mem_of_ne_nil _ hentrances
  obtain ⟨t, hreached, rfl⟩ := exists_reached_of_compile h
  obtain ⟨nodes, hnodes⟩ := hreached.transcribes
  obtain ⟨uses, hreads, htraces⟩ := hreached.traces
  have hstatements : t.statements ≠ [] := by
    intro hnil
    have hlength := hnodes.transcript.length_eq
    rw [hnil, List.length_nil, List.length_eq_zero_iff] at hlength
    have hmem := hnodes.entrance_mem hreached hl
    simp [hlength] at hmem
  -- The statement that was written last is read last, and it uses its own group.
  obtain ⟨source, hsource⟩ : ∃ source, source ∈ groups uses := by
    generalize t.emitted = ids, t.statements = statements at hreads hstatements
    cases hreads with
    | nil => exact absurd rfl hstatements
    | @snoc _ _ _ _ _ _ st => exact ⟨st.source, mem_groups_iff.2 (by simp)⟩
  have hmem : source ∈ t.scope.sources := by
    rw [htraces.sources, List.mem_eraseDups]
    exact hsource
  exact List.ne_nil_of_mem hmem

/-- The lines of a module begin with its header, behind which there is an import. -/
lemma exists_physicalLines_header {d : Document} {c : Compilation} (h : compile d = .ok c)
    (s : Settings) (date : String) :
    ∃ line rest, Text.physicalLines (moduleText s date c) = header s date ++ line :: rest ∧
      isImport line = true := by
  obtain ⟨source, sources, hsources⟩ := List.exists_cons_of_ne_nil (sources_ne_nil_of_compile h)
  obtain ⟨first, more, -, hlines⟩ :=
    Text.exists_physicalLines_append (s := "from keras import ") (by decide) source
  have himport : Text.physicalLines (importLine source) = ("from keras import " ++ first) :: more :=
    hlines
  refine ⟨"from keras import " ++ first, more ++ (sources.map importLine ++ classLines s ++
    constructorLines c.placeholders ++ buildLines c).flatMap Text.physicalLines ++ [""], ?_, ?_⟩
  · rw [physicalLines_moduleText, moduleLines_eq, hsources, header]
    simp [himport, List.flatMap_append]
  · rw [isImport, List.isPrefixOf_iff_prefix, String.toList_append]
    exact List.prefix_append _ _

/-- The header is what stands before the first import, unless it has an import itself. -/
lemma takeWhile_physicalLines {d : Document} {c : Compilation} (h : compile d = .ok c)
    {s : Settings} {date : String} (hheader : ∀ line ∈ header s date, isImport line = false) :
    (Text.physicalLines (moduleText s date c)).takeWhile (!isImport ·) = header s date := by
  obtain ⟨line, rest, hlines, himport⟩ := exists_physicalLines_header h s date
  rw [hlines, List.takeWhile_append_of_pos, List.takeWhile_cons_of_neg (by simp [himport]),
    List.append_nil]
  intro line hline
  simp [hheader line hline]

/-- **The header is a comment unless the author breaks it.**  The lines of a module begin with a
header, which is made from its settings and the date, and behind it there is an import.  If the date
is one line, the lines of the header are comments or empty exactly if every line break of the author
is followed by another one or by the sign of a comment.  Then these are the lines before the first
import.  The name of the class plays no part. -/
theorem header_comment_iff (d : Document) (c : Compilation) (h : compile d = .ok c) (s : Settings)
    (date : String) (hdate : Text.Unbroken date) :
    (∃ line rest, Text.physicalLines (moduleText s date c) = header s date ++ line :: rest ∧
      isImport line = true) ∧
    ((∀ line ∈ header s date, Text.IsComment line) ↔ Text.Commented (s.author.toList ++ [' '])) ∧
    (Text.Commented (s.author.toList ++ [' ']) →
      (Text.physicalLines (moduleText s date c)).takeWhile (!isImport ·) = header s date) := by
  have hcomments := isComment_header_iff s hdate
  refine ⟨exists_physicalLines_header h s date, hcomments, fun hauthor => ?_⟩
  exact takeWhile_physicalLines h fun line hline =>
    isImport_eq_false_of_isComment (hcomments.2 hauthor line hline)

/-- Settings with line breaks: the name loses them, and in the author each is followed by another
one or by a comment. -/
def twoAuthors : Settings where
  name := "my\nnet"
  author := "ada\n\n# and Bob\r#"

/-- The header of `twoAuthors` is a comment, on more lines than it was written in. -/
theorem header_comment_iff_twoAuthors :
    compile diamond = .ok diamondResult ∧ Text.Unbroken "24/01/02" ∧
      (∀ line ∈ header twoAuthors "24/01/02", Text.IsComment line) ∧
      (Text.physicalLines (moduleText twoAuthors "24/01/02" diamondResult)).takeWhile
        (!isImport ·) = header twoAuthors "24/01/02" := by
  have hdate : Text.Unbroken "24/01/02" := by decide
  have hauthor : Text.Commented (twoAuthors.author.toList ++ [' ']) := by decide
  obtain ⟨-, hcomments, hbefore⟩ :=
    header_comment_iff diamond diamondResult compile_diamond twoAuthors "24/01/02" hdate
  exact ⟨compile_diamond, hdate, hcomments.2 hauthor, hbefore hauthor⟩

/-- An author that puts a line of code before the imports. -/
theorem header_not_comment :
    compile diamond = .ok diamondResult ∧ Text.Unbroken "24/01/02" ∧
      (Text.physicalLines (moduleText { author := "ada\nprint(1)" } "24/01/02"
        diamondResult)).takeWhile (!isImport ·) =
        ["# -*- coding: utf-8 -*-", "#", "# model.py", "# Created by Ada", "print(1) on 24/01/02",
          "#", "# Model was built with Karken: KMB", "# A Keras Model Builder Tool.", "#", ""] ∧
      ¬ Text.IsComment "print(1) on 24/01/02" := by
  have hheader : header { author := "ada\nprint(1)" } "24/01/02" =
      ["# -*- coding: utf-8 -*-", "#", "# model.py", "# Created by Ada", "print(1) on 24/01/02",
        "#", "# Model was built with Karken: KMB", "# A Keras Model Builder Tool.", "#", ""] := by
    decide
  refine ⟨compile_diamond, by decide, ?_, by simp [Text.IsComment]⟩
  rw [takeWhile_physicalLines compile_diamond (by rw [hheader]; decide), hheader]

end Module

end NetDiagram
