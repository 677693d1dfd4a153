import Mathlib.Algebra.Ring.Parity
import Mathlib.Data.List.DropRight
import Mathlib.Tactic.MkIffOfInductiveProp
import NetDiagram.Module.Source

/-!
# The literal of a docstring

The comment of a module is broken into lines and written between two marks of three quotes, and
nothing in it is escaped.  So the words of the comment decide what is read: a mark inside a word
ends the literal early, a quote at the end of the last word joins the mark behind it, and a
backslash there takes the mark's first quote away.  Where the lines are broken does not matter,
since there are blanks between the words in any case.

This file reads the literal by the rule for such literals and shows that there is nothing else that
can go wrong.

## Main statements

* `Escapes`: a backslash that is not itself escaped takes the next character.
* `readDocstring_word_gap`: a word whose marks are escaped is read over, up to the blank behind it.
* `exists_readDocstring_of_not_escapes`: a mark that is not escaped ends the literal, there or
  before.
* `docstring_literal_iff`: when the literal ends with the docstring, and when it is left open.
-/

namespace NetDiagram.Module

variable {c : Char} {cs rest w : List Char}

/-! ## Reading -/

/-- The text ends in a backslash that takes the next character: the backslashes at its end are an
odd number. -/
def Escapes (cs : List Char) : Prop :=
  Odd (cs.rtakeWhile (· == '\\')).length

lemma escapes_concat (cs : List Char) (c : Char) :
    Escapes (cs ++ [c]) ↔ c = '\\' ∧ ¬ Escapes cs := by
  rw [Escapes, List.rtakeWhile_concat]
  by_cases hc : c = '\\'
  · simp [hc, Escapes, Nat.odd_add_one]
  · simp [hc]

@[simp] lemma not_escapes_nil : ¬ Escapes [] := by
  simp [Escapes]

@[simp] lemma escapes_singleton : Escapes [c] ↔ c = '\\' := by
  simpa using escapes_concat [] c

@[simp] lemma escapes_cons_of_ne (hc : c ≠ '\\') : Escapes (c :: cs) ↔ Escapes cs := by
  induction cs using List.reverseRecOn with
  | nil => simp [hc]
  | append_singleton cs x ih => rw [← List.cons_append, escapes_concat, escapes_concat, ih]

@[simp] lemma escapes_backslash_cons : Escapes ('\\' :: c :: cs) ↔ Escapes cs := by
  induction cs using List.reverseRecOn with
  | nil => simpa using escapes_concat ['\\'] c
  | append_singleton cs x ih =>
    rw [← List.cons_append, ← List.cons_append, escapes_concat, escapes_concat, ih]

/-- Reads a docstring behind the mark that opens it: a backslash takes the next character, and the
first three quotes that are not taken end the literal.  The result is what is left behind them. -/
def readDocstring : List Char → Option (List Char)
  | '\\' :: _ :: rest => readDocstring rest
  | '"' :: '"' :: '"' :: rest => some rest
  | _ :: rest => readDocstring rest
  | [] => none

lemma readDocstring_cons (hc : c ≠ '\\') (hmark : ¬ docstringMark.toList <+: c :: cs) :
    readDocstring (c :: cs) = readDocstring cs := by
  rw [readDocstring]
  · rintro _ _ rfl
    exact absurd rfl hc
  · rintro rest rfl rfl
    exact absurd ⟨rest, rfl⟩ hmark

/-- Wherever the rest of the text is as described, what stands before it escapes it. -/
def EscapedWhere (P : List Char → Prop) (cs : List Char) : Prop :=
  ∀ pre rest, cs = pre ++ rest → P rest → Escapes pre

lemma EscapedWhere.of_cons {P : List Char → Prop} (h : EscapedWhere P (c :: cs)) (hc : c ≠ '\\') :
    EscapedWhere P cs := by
  rintro pre rest rfl hrest
  exact (escapes_cons_of_ne hc).1 (h (c :: pre) rest rfl hrest)

lemma EscapedWhere.of_backslash {P : List Char → Prop} (h : EscapedWhere P ('\\' :: c :: cs)) :
    EscapedWhere P cs := by
  rintro pre rest rfl hrest
  exact escapes_backslash_cons.1 (h ('\\' :: c :: pre) rest rfl hrest)

/-- Every mark in the text is escaped. -/
def MarksEscaped (cs : List Char) : Prop :=
  EscapedWhere (docstringMark.toList <+: ·) cs

/-- A quote at the end of the text is escaped. -/
def QuoteEscaped (cs : List Char) : Prop :=
  EscapedWhere (· = ['"']) cs

lemma not_marksEscaped_mark : ¬ MarksEscaped ('"' :: '"' :: '"' :: cs) := fun h =>
  not_escapes_nil (h [] _ rfl ⟨cs, rfl⟩)

/-- A mark that begins in a text and ends behind it. -/
lemma exists_quote_of_mark_prefix {x : Char} (h : docstringMark.toList <+: x :: (w ++ rest))
    (hmark : ∀ tail, x = '"' → w = '"' :: '"' :: tail → False) :
    ∃ pre, x :: w = pre ++ ['"'] ∧ ¬ Escapes pre ∧ rest.head? = some '"' := by
  obtain ⟨post, hpost⟩ := h
  obtain ⟨rfl, hw⟩ : '"' = x ∧ '"' :: '"' :: post = w ++ rest := List.cons.inj hpost
  match w with
  | [] => exact ⟨[], rfl, not_escapes_nil, by rw [← List.nil_append rest, ← hw]; rfl⟩
  | [y] =>
    obtain ⟨rfl, hrest⟩ : '"' = y ∧ '"' :: post = rest := List.cons.inj hw
    exact ⟨['"'], rfl, by simp, by rw [← hrest]; rfl⟩
  | y :: z :: tail =>
    obtain ⟨rfl, hrest⟩ : '"' = y ∧ '"' :: post = z :: tail ++ rest := List.cons.inj hw
    obtain ⟨rfl, -⟩ : '"' = z ∧ post = tail ++ rest := List.cons.inj hrest
    exact (hmark tail rfl rfl).elim

/-- A text that does not escape what follows it begins with a backslash only if the backslash takes
a character of the text. -/
lemma ne_backslash_of_not_escapes {x : Char} (h : ¬ Escapes (x :: w))
    (hbackslash : ∀ y tail, x = '\\' → w = y :: tail → False) : x ≠ '\\' := by
  rintro rfl
  cases w with
  | nil => exact h (escapes_singleton.2 rfl)
  | cons y tail => exact hbackslash y tail rfl rfl

/-- A backslash at the end of a text takes the character behind it. -/
lemma readDocstring_append_of_escapes (h : MarksEscaped w) (hw : Escapes w) :
    readDocstring (w ++ c :: rest) = readDocstring rest := by
  induction w using readDocstring.induct with
  | case1 x w ih => exact ih h.of_backslash (escapes_backslash_cons.1 hw)
  | case2 w => exact absurd h not_marksEscaped_mark
  | case3 x w hbackslash hmark ih =>
    by_cases hx : x = '\\'
    · cases w with
      | nil => rw [hx, List.cons_append, List.nil_append, readDocstring]
      | cons y w => exact (hbackslash y w hx rfl).elim
    · rw [List.cons_append, readDocstring_cons hx,
        ih (h.of_cons hx) ((escapes_cons_of_ne hx).1 hw)]
      -- If a mark began here, the text would end in a quote, but it ends in a backslash.
      intro hprefix
      obtain ⟨pre, hpre, -⟩ := exists_quote_of_mark_prefix hprefix hmark
      rw [hpre, escapes_concat] at hw
      exact absurd hw.1 (by decide)
  | case4 => exact absurd hw not_escapes_nil

/-- A text without marks is read over, if it does not form a mark with what is behind it. -/
lemma readDocstring_append_of_not_escapes (h : MarksEscaped w) (hw : ¬ Escapes w)
    (hquote : QuoteEscaped w ∨ rest.head? ≠ some '"') :
    readDocstring (w ++ rest) = readDocstring rest := by
  -- The cases are those of reading `w` alone.  Behind it only a mark that begins in `w` and ends in
  -- `rest` could be read otherwise, and that needs a quote on both sides.
  induction w using readDocstring.induct with
  | case1 x w ih =>
    exact ih h.of_backslash (mt escapes_backslash_cons.2 hw) (hquote.imp_left (·.of_backslash))
  | case2 w => exact absurd h not_marksEscaped_mark
  | case3 x w hbackslash hmark ih =>
    have hx := ne_backslash_of_not_escapes hw hbackslash
    rw [List.cons_append, readDocstring_cons hx, ih (h.of_cons hx)
      (mt (escapes_cons_of_ne hx).2 hw) (hquote.imp_left (·.of_cons hx))]
    intro hprefix
    obtain ⟨pre, hpre, hescapes, hhead⟩ := exists_quote_of_mark_prefix hprefix hmark
    exact hquote.elim (fun hquote => hescapes (hquote pre _ hpre rfl)) (· hhead)
  | case4 => rfl

/-- A mark that is not escaped ends the literal, there or before. -/
lemma exists_readDocstring_of_not_escapes {pre : List Char} (h : ¬ Escapes pre)
    (rest : List Char) :
    ∃ left, readDocstring (pre ++ docstringMark.toList ++ rest) = some left ∧ rest <:+ left := by
  induction pre using readDocstring.induct with
  | case1 x pre ih => exact ih (mt escapes_backslash_cons.2 h)
  | case2 pre => exact ⟨pre ++ docstringMark.toList ++ rest, rfl, List.suffix_append _ _⟩
  | case3 x pre hbackslash _ ih =>
    have hx := ne_backslash_of_not_escapes h hbackslash
    by_cases hprefix : docstringMark.toList <+: x :: (pre ++ docstringMark.toList ++ rest)
    · obtain ⟨left, hleft⟩ := hprefix
      -- both are what is left of one text, and less of it is left behind the later mark
      have hrest : rest <:+ docstringMark.toList ++ left := by
        rw [hleft, ← List.cons_append]
        exact List.suffix_append _ _
      have hle : rest.length ≤ left.length := by
        have hlength := congrArg List.length hleft
        simp only [List.length_append, List.length_cons] at hlength
        omega
      exact ⟨left, congrArg readDocstring hleft.symm,
        List.suffix_of_suffix_length_le hrest (List.suffix_append _ _) hle⟩
    · obtain ⟨left, hleft, hsuffix⟩ := ih (mt (escapes_cons_of_ne hx).2 h)
      exact ⟨left, (readDocstring_cons hx hprefix).trans hleft, hsuffix⟩
  | case4 => exact ⟨rest, rfl, List.suffix_rfl⟩

/-! ## Words -/

/-- A word whose marks are escaped is read over, with the blanks behind it. -/
lemma readDocstring_word_gap {gap : List Char} (h : MarksEscaped w) (hgap : gap ≠ [])
    (hblank : ∀ c ∈ gap, Text.isBlank c) :
    readDocstring (w ++ gap ++ rest) = readDocstring rest := by
  have hplain : ∀ c ∈ gap, c ≠ '\\' ∧ c ≠ '"' := by
    intro c hc
    constructor
    · rintro rfl
      exact absurd (hblank _ hc) (by decide)
    · rintro rfl
      exact absurd (hblank _ hc) (by decide)
  have hskip : ∀ gap : List Char, (∀ c ∈ gap, c ≠ '\\' ∧ c ≠ '"') →
      readDocstring (gap ++ rest) = readDocstring rest := by
    intro gap hplain
    induction gap with
    | nil => rfl
    | cons c gap ih =>
      rw [List.forall_mem_cons] at hplain
      rw [List.cons_append, readDocstring_cons hplain.1.1, ih hplain.2]
      rintro ⟨post, hpost⟩
      exact hplain.1.2 (List.cons.inj hpost).1.symm
  -- If the word ends in a backslash, it takes the first blank; the others are skipped.
  by_cases hw : Escapes w
  · cases gap with
    | nil => exact absurd rfl hgap
    | cons c gap =>
      rw [List.append_assoc, List.cons_append, readDocstring_append_of_escapes h hw,
        hskip gap (List.forall_mem_cons.1 hplain).2]
  · rw [List.append_assoc, readDocstring_append_of_not_escapes h hw (Or.inr ?_), hskip gap hplain]
    cases gap with
    | nil => exact absurd rfl hgap
    | cons c gap => simpa using (hplain c List.mem_cons_self).2

lemma readDocstring_of_not_escapes {pre : List Char} (h : ¬ Escapes pre) (hrest : rest ≠ []) :
    readDocstring (pre ++ docstringMark.toList ++ rest) ≠ none ∧
      readDocstring (pre ++ docstringMark.toList ++ rest) ≠ some [] := by
  obtain ⟨left, hleft, hsuffix⟩ := exists_readDocstring_of_not_escapes h rest
  rw [hleft]
  refine ⟨by simp, fun hnil => hrest ?_⟩
  obtain rfl := Option.some.inj hnil
  exact List.suffix_nil.1 hsuffix

lemma readDocstring_of_not_marksEscaped (h : ¬ MarksEscaped w) (hrest : rest ≠ []) :
    readDocstring (w ++ rest) ≠ none ∧ readDocstring (w ++ rest) ≠ some [] := by
  simp only [MarksEscaped, EscapedWhere, not_forall] at h
  obtain ⟨pre, -, rfl, ⟨post, rfl⟩, hpre⟩ := h
  rw [← List.append_assoc, List.append_assoc]
  exact readDocstring_of_not_escapes hpre (by simp [hrest])

lemma readDocstring_last_iff (h : MarksEscaped w) :
    (readDocstring (w ++ docstringMark.toList) = some [] ↔ ¬ Escapes w ∧ QuoteEscaped w) ∧
      (readDocstring (w ++ docstringMark.toList) = none ↔ Escapes w) := by
  by_cases hw : Escapes w
  · have hopen : readDocstring (w ++ docstringMark.toList) = none :=
      readDocstring_append_of_escapes h hw
    simp [hopen, hw]
  · by_cases hquote : QuoteEscaped w
    · have hclosed : readDocstring (w ++ docstringMark.toList) = some [] :=
        readDocstring_append_of_not_escapes h hw (Or.inl hquote)
      simp [hclosed, hw, hquote]
    · have hearly : readDocstring (w ++ docstringMark.toList) ≠ none ∧
          readDocstring (w ++ docstringMark.toList) ≠ some [] := by
        simp only [QuoteEscaped, EscapedWhere, not_forall] at hquote
        obtain ⟨pre, -, rfl, rfl, hpre⟩ := hquote
        -- The quote at the end of the word and two of the mark are a mark, one character early.
        have hshift : pre ++ ['"'] ++ docstringMark.toList =
            pre ++ docstringMark.toList ++ ['"'] := by
          simp [docstringMark]
        rw [hshift]
        exact readDocstring_of_not_escapes hpre (by simp)
      simp [hearly, hw, hquote]

/-- The text has the words one after the other, with blanks before each. -/
inductive Follows : List String → List Char → Prop
  | nil : Follows [] []
  | cons {word : String} {words : List String} {gap tail : List Char} (gap_ne : gap ≠ [])
      (blank : ∀ c ∈ gap, Text.isBlank c) (others : Follows words tail) :
      Follows (word :: words) (gap ++ (word.toList ++ tail))

/-- **What the words of a docstring have to satisfy.**  A mark inside a word is escaped, and so is a
quote at the end of the last word; the last word itself does not escape what follows it. -/
@[mk_iff]
structure Enclosable (words : List String) : Prop where
  marks : ∀ word ∈ words, MarksEscaped word.toList
  last : ∀ word ∈ words.getLast?, ¬ Escapes word.toList ∧ QuoteEscaped word.toList

/-- The words let the mark that follows them be read as part of the text. -/
@[mk_iff]
structure LeftOpen (words : List String) : Prop where
  marks : ∀ word ∈ words, MarksEscaped word.toList
  last : ∃ word ∈ words.getLast?, Escapes word.toList

/-- Reading words and the mark behind them. -/
lemma Follows.readDocstring_iff {word : String} {words : List String} {tail : List Char}
    (h : Follows words tail) :
    (readDocstring (word.toList ++ tail ++ docstringMark.toList) = some [] ↔
        Enclosable (word :: words)) ∧
      (readDocstring (word.toList ++ tail ++ docstringMark.toList) = none ↔
        LeftOpen (word :: words)) := by
  induction h generalizing word with
  | nil =>
    rw [List.append_nil]
    by_cases hword : MarksEscaped word.toList
    · obtain ⟨hclosed, hopen⟩ := readDocstring_last_iff hword
      rw [hclosed, hopen, enclosable_iff, leftOpen_iff]
      simp [hword]
    · obtain ⟨hopen, hclosed⟩ :=
        readDocstring_of_not_marksEscaped hword (show docstringMark.toList ≠ [] by decide)
      exact ⟨iff_of_false hclosed fun h => hword (h.marks word List.mem_cons_self),
        iff_of_false hopen fun h => hword (h.marks word List.mem_cons_self)⟩
  | @cons next words gap tail gap_ne blank others ih =>
    have hassoc : word.toList ++ (gap ++ (next.toList ++ tail)) ++ docstringMark.toList =
        word.toList ++ gap ++ (next.toList ++ tail ++ docstringMark.toList) := by
      simp only [List.append_assoc]
    rw [hassoc]
    by_cases hword : MarksEscaped word.toList
    · obtain ⟨hclosed, hopen⟩ := @ih next
      rw [readDocstring_word_gap hword gap_ne blank, hclosed, hopen]
      simp [enclosable_iff, leftOpen_iff, hword]
    -- A mark that is open in this word ends the literal here, whatever the words behind it are.
    · have hrest : gap ++ (next.toList ++ tail ++ docstringMark.toList) ≠ [] := by simp [gap_ne]
      obtain ⟨hopen, hclosed⟩ := readDocstring_of_not_marksEscaped hword hrest
      rw [← List.append_assoc] at hopen hclosed
      exact ⟨iff_of_false hclosed fun h => hword (h.marks word List.mem_cons_self),
        iff_of_false hopen fun h => hword (h.marks word List.mem_cons_self)⟩

/-! ## Lines -/

/-- The comment of a docstring as it is written, and the mark that ends it. -/
def docstringBody (comment : String) : String :=
  ("\n" ++ tab).intercalate (Text.wrap comment 70) ++ docstringMark

lemma intercalate_indent {lines : List String} (h : lines ≠ []) :
    "\n".intercalate (lines.map (tab ++ ·)) = tab ++ ("\n" ++ tab).intercalate lines := by
  induction lines with
  | nil => exact absurd rfl h
  | cons line lines ih =>
    by_cases hlast : lines = []
    · simp [hlast]
    · rw [List.map_cons, String.intercalate_cons_of_ne_nil (by simpa using hlast), ih hlast,
        String.intercalate_cons_of_ne_nil hlast]
      simp only [String.append_assoc]

lemma intercalate_concat_append (separator mark last : String) (lines : List String) :
    separator.intercalate (lines ++ [last ++ mark]) =
      separator.intercalate (lines ++ [last]) ++ mark := by
  by_cases hlines : lines = []
  · simp [hlines]
  · rw [String.intercalate_append_of_ne_nil hlines (by simp),
      String.intercalate_append_of_ne_nil hlines (by simp), String.intercalate_singleton,
      String.intercalate_singleton]
    simp only [String.append_assoc]

lemma encloseLines_ne_nil {lines : List String} (h : lines ≠ []) : encloseLines lines ≠ [] := by
  match lines with
  | [] => exact absurd rfl h
  | [_] => simp [encloseLines]
  | _ :: _ :: _ => simp [encloseLines]

lemma intercalate_encloseLines {separator : String} {lines : List String} (h : lines ≠ []) :
    separator.intercalate (encloseLines lines) =
      docstringMark ++ separator.intercalate lines ++ docstringMark := by
  match lines with
  | [] => exact absurd rfl h
  | [line] => simp [encloseLines]
  | first :: second :: rest =>
    have hsplit : (second :: rest).dropLast ++ [(second :: rest).getLastD ""] = second :: rest := by
      rw [List.getLastD_eq_getLast?, List.getLast?_eq_getLast_of_ne_nil (by simp)]
      exact List.dropLast_concat_getLast _
    have henclose : encloseLines (first :: second :: rest) = (docstringMark ++ first) ::
        ((second :: rest).dropLast ++ [(second :: rest).getLastD "" ++ docstringMark]) := rfl
    rw [henclose, String.intercalate_cons_of_ne_nil (by simp), intercalate_concat_append,
      hsplit, String.intercalate_cons_of_ne_nil (List.cons_ne_nil second rest)]
    simp only [String.append_assoc]

lemma intercalate_docstring {comment : String} (h : Text.wrap comment 70 ≠ []) :
    "\n".intercalate (docstring comment) = tab ++ docstringMark ++ docstringBody comment := by
  have hdocstring : docstring comment = (encloseLines (Text.wrap comment 70)).map (tab ++ ·) := rfl
  rw [hdocstring, intercalate_indent (encloseLines_ne_nil h), intercalate_encloseLines h,
    docstringBody]
  simp only [String.append_assoc]

lemma wrapFrom_ne_nil (width : Nat) (line : String) (words : List String) :
    Text.wrapFrom width line words ≠ [] := by
  induction words generalizing line with
  | nil => simp [Text.wrapFrom]
  | cons word words ih =>
    rw [Text.wrapFrom]
    split
    · simp
    · exact ih _

/-- Wherever a line ends, there are blanks between the words. -/
lemma exists_follows_wrapFrom (width : Nat) (line : String) (words : List String) :
    ∃ tail, (("\n" ++ tab).intercalate (Text.wrapFrom width line words)).toList =
      line.toList ++ tail ∧ Follows words tail := by
  induction words generalizing line with
  | nil => exact ⟨[], by simp [Text.wrapFrom], .nil⟩
  | cons word words ih =>
    rw [Text.wrapFrom]
    split
    · obtain ⟨tail, htail, hfollows⟩ := ih word
      refine ⟨_, ?_, .cons (show ("\n" ++ tab).toList ≠ [] by decide)
        (by simp [tab, Text.isBlank]) hfollows⟩
      rw [String.intercalate_cons_of_ne_nil (wrapFrom_ne_nil width word words)]
      simp [htail]
    · obtain ⟨tail, htail, hfollows⟩ := ih (line ++ " " ++ word)
      refine ⟨_, ?_, .cons (show [' '] ≠ [] by decide) (by simp [Text.isBlank]) hfollows⟩
      simp [htail]

/-- **The literal of a docstring.**  A docstring is indented and begins with a mark, behind which
its words stand up to the mark at its end.  The literal that is read there ends with the docstring
exactly if the words of the comment are enclosable.  It does not end at all exactly if the last word
takes away from the mark; in every other case it ends early. -/
theorem docstring_literal_iff (comment : String) (h : Text.wrap comment 70 ≠ []) :
    "\n".intercalate (docstring comment) = tab ++ docstringMark ++ docstringBody comment ∧
      (readDocstring (docstringBody comment).toList = some [] ↔ Enclosable (Text.words comment)) ∧
      (readDocstring (docstringBody comment).toList = none ↔ LeftOpen (Text.words comment)) := by
  refine ⟨intercalate_docstring h, ?_⟩
  cases hwords : Text.words comment with
  | nil => simp [Text.wrap, hwords, Text.wrapWords] at h
  | cons word words =>
    have hlines : Text.wrap comment 70 = Text.wrapFrom 70 word words := by
      rw [Text.wrap, hwords, Text.wrapWords]
    obtain ⟨tail, htail, hfollows⟩ := exists_follows_wrapFrom 70 word words
    rw [docstringBody, hlines, String.toList_append, htail]
    exact hfollows.readDocstring_iff

/-- A comment of two lines, with quotes and backslashes that do no harm: an escaped mark, a
backslash before a blank, and a last word that ends in an escaped quote. -/
def quotedComment : String :=
  "Reads \"raw\" text; a mark such as \\\"\"\" is escaped, a trailing \\ takes a blank\\ and " ++
    "this ends in \\\""

/-- The docstring of `quotedComment` is one literal, and so its words are enclosable. -/
theorem docstring_literal_iff_quotedComment :
    Text.wrap quotedComment 70 ≠ [] ∧
      "\n".intercalate (docstring quotedComment) =
        tab ++ docstringMark ++ docstringBody quotedComment ∧
      readDocstring (docstringBody quotedComment).toList = some [] ∧
      Enclosable (Text.words quotedComment) ∧ ¬ LeftOpen (Text.words quotedComment) := by
  have hlines : Text.wrap quotedComment 70 ≠ [] := by decide +kernel
  have hread : readDocstring (docstringBody quotedComment).toList = some [] := by decide +kernel
  obtain ⟨htext, hclosed, hopen⟩ := docstring_literal_iff quotedComment hlines
  exact ⟨hlines, htext, hread, hclosed.1 hread, fun h => by simp [hopen.2 h] at hread⟩

/-- Three docstrings that are not one literal: a quote at the end of the comment leaves a quote
behind the literal, a mark inside ends it early, and a backslash at the end leaves it open. -/
theorem docstring_not_literal :
    Text.wrap "A so-called \"net\"" 70 ≠ [] ∧
      docstring "A so-called \"net\"" = [tab ++ "\"\"\"A so-called \"net\"\"\"\""] ∧
      readDocstring (docstringBody "A so-called \"net\"").toList = some ['"'] ∧
      readDocstring (docstringBody "Uses \"\"\" marks").toList =
        some " marks\"\"\"".toList ∧
      readDocstring (docstringBody "Saved in C:\\").toList = none := by
  refine ⟨?_, ?_, ?_, ?_, ?_⟩ <;> decide +kernel

end NetDiagram.Module
