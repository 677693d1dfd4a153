import Mathlib.Data.List.Chain
import NetDiagram.Proofs.Docstrings
import NetDiagram.Proofs.IdLists

/-!
# Greedy wrapping

A comment is wrapped by a loop that carries the line so far.  What the loop is for can be said of
its result alone: the lines have the words of the text in their order, each line fits the width
unless it is one long word, and no line could have taken the first word of the next one.  There is
only one list of lines like that, so this is all there is to say about it.

The lines do not depend on how the words were spaced in the text.  Hence wrapping is stable: lines
that are joined by blanks of any kind are wrapped into the same lines again.

## Main statements

* `IsGreedyWrap.eq`: two greedy wraps of the same words are equal.
* `isGreedyWrap_wrap`: the loop makes a greedy wrap.
* `wrap_greedy`: the lines of a text are its only greedy wrap, wrapping is stable, and a docstring
  keeps to its width.
-/

namespace NetDiagram

namespace Text

variable {width : Nat} {s gap line other w : String} {ws lines others : List String}

/-! ## Words -/

/-- The text is one word. -/
def IsWord (s : String) : Prop :=
  s ≠ "" ∧ ∀ c ∈ s.toList, isBlank c = false

/-- The text is what may stand between two words. -/
def IsGap (s : String) : Prop :=
  s ≠ "" ∧ ∀ c ∈ s.toList, isBlank c = true

lemma isWord_of_mem_words (h : w ∈ words s) : IsWord w := by
  obtain ⟨piece, hpiece, rfl⟩ := List.mem_map.1 h
  obtain ⟨hpiece, hne⟩ := List.mem_filter.1 hpiece
  constructor
  · simpa using hne
  · rw [String.toList_ofList]
    exact not_of_mem_segments hpiece

lemma IsWord.words_eq (h : IsWord w) : words w = [w] := by
  have hne : w.toList ≠ [] := by simpa using h.1
  rw [words, segments_eq_splitOnP, List.splitOnP_eq_singleton h.2,
    List.filter_cons_of_pos (by simpa using hne), List.filter_nil, List.map_singleton,
    String.ofList_toList]

@[simp] lemma words_empty : words "" = [] := rfl

lemma words_ofList_append {b : Char} (hb : isBlank b = true) (cs ds : List Char) :
    words (String.ofList (cs ++ b :: ds)) =
      words (String.ofList cs) ++ words (String.ofList ds) := by
  simp only [words, String.toList_ofList, segments_eq_splitOnP,
    List.splitOnP_append_cons _ _ hb, List.filter_append, List.map_append]

lemma words_ofList_blank {bs : List Char} (h : ∀ b ∈ bs, isBlank b = true) (cs : List Char) :
    words (String.ofList (bs ++ cs)) = words (String.ofList cs) := by
  induction bs with
  | nil => rfl
  | cons b bs ih =>
    rw [List.forall_mem_cons] at h
    rw [← ih h.2]
    exact words_ofList_append h.1 [] (bs ++ cs)

lemma IsGap.words_append (h : IsGap gap) (s t : String) :
    words (s ++ gap ++ t) = words s ++ words t := by
  obtain ⟨b, bs, hgap⟩ : ∃ b bs, gap.toList = b :: bs :=
    List.exists_cons_of_ne_nil (by simpa using h.1)
  have hblank := h.2
  rw [hgap, List.forall_mem_cons] at hblank
  have hlist : s ++ gap ++ t = String.ofList (s.toList ++ b :: (bs ++ t.toList)) := by
    rw [← List.cons_append, ← hgap]
    simp [String.append_assoc]
  rw [hlist, words_ofList_append hblank.1, words_ofList_blank hblank.2, String.ofList_toList,
    String.ofList_toList]

lemma IsGap.words_intercalate (h : IsGap gap) (texts : List String) :
    words (gap.intercalate texts) = texts.flatMap words := by
  induction texts with
  | nil => simp
  | cons text texts ih =>
    by_cases hlast : texts = []
    · simp [hlast]
    · rw [String.intercalate_cons_of_ne_nil hlast, h.words_append, ih, List.flatMap_cons]

lemma isGap_space : IsGap " " := by
  simp [IsGap, isBlank]

/-! ## Lines -/

/-- A line: its words with one space between them, as many as fit the width, or a single one. -/
structure IsLine (width : Nat) (line : String) : Prop where
  ne_empty : line ≠ ""
  spaced : " ".intercalate (words line) = line
  fits : line.utf8ByteSize ≤ width ∨ words line = [line]

lemma IsLine.words_ne_nil (h : IsLine width line) : words line ≠ [] := by
  intro hnil
  have hspaced := h.spaced
  rw [hnil, String.intercalate_nil] at hspaced
  exact h.ne_empty hspaced.symm

lemma IsWord.isLine (h : IsWord w) : IsLine width w where
  ne_empty := h.1
  spaced := by rw [h.words_eq, String.intercalate_singleton]
  fits := Or.inr h.words_eq

lemma IsWord.words_snoc (h : IsWord w) (line : String) :
    words (line ++ " " ++ w) = words line ++ [w] := by
  rw [isGap_space.words_append, h.words_eq]

/-- A line takes another word as long as there is room for it. -/
lemma IsLine.snoc (h : IsLine width line) (hw : IsWord w)
    (hroom : line.utf8ByteSize + 1 + w.utf8ByteSize ≤ width) :
    IsLine width (line ++ " " ++ w) where
  ne_empty := by simp
  spaced := by
    rw [hw.words_snoc, String.intercalate_append_of_ne_nil h.words_ne_nil (List.cons_ne_nil _ _),
      h.spaced, String.intercalate_singleton]
  fits := by
    have hspace : " ".utf8ByteSize = 1 := rfl
    left
    rwa [String.utf8ByteSize_append, String.utf8ByteSize_append, hspace]

/-- What the words of a line begin with is shorter than the line by at least a space and the next
word. -/
lemma IsLine.utf8ByteSize_le (h : IsLine width line) (hother : IsLine width other)
    {more : List String} (hwords : words other = words line ++ w :: more) :
    line.utf8ByteSize + 1 + w.utf8ByteSize ≤ other.utf8ByteSize := by
  have hmore : ∃ rest, " ".intercalate (w :: more) = w ++ rest := by
    cases more with
    | nil => exact ⟨"", by simp⟩
    | cons next more =>
      exact ⟨" " ++ " ".intercalate (next :: more), by simp [String.append_assoc]⟩
  obtain ⟨rest, hrest⟩ := hmore
  have hline : other = line ++ " " ++ (w ++ rest) := by
    rw [← hother.spaced, hwords, String.intercalate_append_of_ne_nil h.words_ne_nil
      (List.cons_ne_nil _ _), h.spaced, hrest]
  have hspace : " ".utf8ByteSize = 1 := rfl
  rw [hline]
  simp only [String.utf8ByteSize_append, hspace]
  omega

/-! ## Greedy wraps -/

/-- **A greedy wrap.**  The lines have the given words, in their order, and a line is followed by
another one only if it had no room for its first word. -/
structure IsGreedyWrap (width : Nat) (ws lines : List String) : Prop where
  words_eq : lines.flatMap words = ws
  isLine : ∀ line ∈ lines, IsLine width line
  full : lines.IsChain fun line next =>
    ∃ w ∈ (words next).head?, width < line.utf8ByteSize + 1 + w.utf8ByteSize

namespace IsGreedyWrap

lemma head?_words (h : IsGreedyWrap width ws (line :: lines)) : (words line).head? = ws.head? := by
  have hne := (h.isLine line List.mem_cons_self).words_ne_nil
  rw [← h.words_eq, List.flatMap_cons, List.head?_append_of_ne_nil _ hne]

lemma tail (h : IsGreedyWrap width ws (line :: lines)) :
    IsGreedyWrap width (lines.flatMap words) lines where
  words_eq := rfl
  isLine := fun l hl => h.isLine l (List.mem_cons_of_mem _ hl)
  full := h.full.tail

/-- A line before a greedy wrap whose first word does not fit. -/
lemma cons (h : IsGreedyWrap width (w :: ws) lines) (hline : IsLine width line)
    (hfull : width < line.utf8ByteSize + 1 + w.utf8ByteSize) :
    IsGreedyWrap width (words line ++ w :: ws) (line :: lines) where
  words_eq := by rw [List.flatMap_cons, h.words_eq]
  isLine := List.forall_mem_cons.2 ⟨hline, h.isLine⟩
  full := by
    rw [List.isChain_cons]
    refine ⟨fun next hnext => ⟨w, ?_, hfull⟩, h.full⟩
    obtain ⟨rest, rfl⟩ : ∃ rest, lines = next :: rest := List.head?_eq_some_iff.1 hnext
    rw [h.head?_words]
    rfl

/-- The first line has as many words as a line can have. -/
lemma eq_nil_of_extends (h : IsGreedyWrap width ws (line :: lines)) (hother : IsLine width other)
    {more : List String} (hwords : words other = words line ++ more)
    (hmore : more <+: lines.flatMap words) : more = [] := by
  cases more with
  | nil => rfl
  | cons w more =>
    have hline := h.isLine line List.mem_cons_self
    -- the word that the other line has in addition begins the second line
    obtain ⟨next, rest, rfl⟩ : ∃ next rest, lines = next :: rest := by
      refine List.exists_cons_of_ne_nil ?_
      rintro rfl
      simp at hmore
    have hnext : (words next).head? = some w := by
      rw [h.tail.head?_words]
      obtain ⟨rest', hrest'⟩ := hmore
      rw [← hrest']
      rfl
    obtain ⟨w', hw', hfull⟩ := (List.isChain_cons.1 h.full).1 next rfl
    obtain rfl : w = w' := Option.some.inj (hnext.symm.trans hw')
    have hsize := hline.utf8ByteSize_le hother hwords
    -- so the other line is too long, but it is no single word
    rcases hother.fits with hfits | hsingle
    · omega
    · rw [hsingle] at hwords
      have hlength := congrArg List.length hwords
      have hpos := List.length_pos_of_ne_nil hline.words_ne_nil
      simp only [List.length_append, List.length_cons, List.length_nil] at hlength
      omega

/-- **Two greedy wraps of the same words are equal.** -/
theorem eq (h : IsGreedyWrap width ws lines) (h' : IsGreedyWrap width ws others) :
    lines = others := by
  induction lines generalizing ws others with
  | nil =>
    cases others with
    | nil => rfl
    | cons other others =>
      have hwords := h'.words_eq.trans h.words_eq.symm
      rw [List.flatMap_cons, List.flatMap_nil, List.append_eq_nil_iff] at hwords
      exact absurd hwords.1 (h'.isLine other List.mem_cons_self).words_ne_nil
  | cons line lines ih =>
    have hline := h.isLine line List.mem_cons_self
    cases others with
    | nil =>
      have hwords := h.words_eq.trans h'.words_eq.symm
      rw [List.flatMap_cons, List.flatMap_nil, List.append_eq_nil_iff] at hwords
      exact absurd hwords.1 hline.words_ne_nil
    | cons other others =>
      have hother := h'.isLine other List.mem_cons_self
      have hwords : words line ++ lines.flatMap words = words other ++ others.flatMap words := by
        rw [← List.flatMap_cons, ← List.flatMap_cons, h.words_eq, h'.words_eq]
      -- neither first line can have a word more than the other
      have hsame : words line = words other := by
        rcases List.append_eq_append_iff.1 hwords with
          ⟨more, hmore, hrest⟩ | ⟨more, hmore, hrest⟩
        · rw [hmore, h.eq_nil_of_extends hother hmore ⟨_, hrest.symm⟩, List.append_nil]
        · rw [hmore, h'.eq_nil_of_extends hline hmore ⟨_, hrest.symm⟩, List.append_nil]
      obtain rfl : line = other := by rw [← hline.spaced, hsame, hother.spaced]
      have hrest := List.append_cancel_left hwords
      rw [ih h.tail (hrest ▸ h'.tail)]

end IsGreedyWrap

/-- The loop makes a greedy wrap of the line that it carries and the words to come. -/
lemma isGreedyWrap_wrapFrom (hline : IsLine width line) (hws : ∀ w ∈ ws, IsWord w) :
    IsGreedyWrap width (words line ++ ws) (wrapFrom width line ws) := by
  induction ws generalizing line with
  | nil =>
    exact ⟨by simp [wrapFrom], by simpa [wrapFrom] using hline, by simp [wrapFrom]⟩
  | cons w ws ih =>
    rw [List.forall_mem_cons] at hws
    rw [wrapFrom]
    split
    · rename_i hfull
      have hrest := ih hws.1.isLine hws.2
      rw [hws.1.words_eq, List.singleton_append] at hrest
      exact hrest.cons hline hfull
    · rename_i hroom
      have hrest := ih (hline.snoc hws.1 (Nat.not_lt.1 hroom)) hws.2
      rwa [hws.1.words_snoc, List.append_assoc, List.singleton_append] at hrest

/-- **Wrapping a text makes a greedy wrap of its words.** -/
theorem isGreedyWrap_wrap (s : String) (width : Nat) :
    IsGreedyWrap width (words s) (wrap s width) := by
  have hwords : ∀ w ∈ words s, IsWord w := fun w => isWord_of_mem_words
  rw [wrap]
  cases hlist : words s with
  | nil => exact ⟨rfl, by simp [wrapWords], .nil⟩
  | cons w ws =>
    rw [hlist, List.forall_mem_cons] at hwords
    have hwrap : IsGreedyWrap width (words w ++ ws) (wrapFrom width w ws) :=
      isGreedyWrap_wrapFrom hwords.1.isLine hwords.2
    rwa [hwords.1.words_eq] at hwrap

lemma IsGap.wrap_intercalate (h : IsGap gap) (s : String) (width : Nat) :
    wrap (gap.intercalate (wrap s width)) width = wrap s width := by
  rw [wrap, h.words_intercalate, (isGreedyWrap_wrap s width).words_eq, wrap]

end Text

/-! ## Docstrings -/

namespace Module

open Text

/-- A line of a docstring, and the text in it: the line is indented, and the text may stand behind
an opening mark and before a closing one. -/
def Frames (line text : String) : Prop :=
  ∃ opening ∈ ["", docstringMark], ∃ closing ∈ ["", docstringMark],
    line = tab ++ (opening ++ text ++ closing)

lemma Frames.utf8ByteSize_le {line text : String} (h : Frames line text) :
    line.utf8ByteSize ≤ text.utf8ByteSize + 10 := by
  have hmark : ∀ mark ∈ ["", docstringMark], mark.utf8ByteSize ≤ 3 := by decide
  obtain ⟨opening, hopening, closing, hclosing, rfl⟩ := h
  have htab : tab.utf8ByteSize = 4 := rfl
  have hfirst := hmark opening hopening
  have hlast := hmark closing hclosing
  simp only [String.utf8ByteSize_append, htab]
  omega

lemma exists_frames_of_mem_docstring {comment line : String} (h : line ∈ docstring comment) :
    ∃ text ∈ wrap comment 70, Frames line text := by
  have henclose : ∀ (lines : List String) (line : String), line ∈ encloseLines lines →
      ∃ text ∈ lines, Frames (tab ++ line) text := by
    intro lines line hline
    match lines with
    | [] => simp [encloseLines] at hline
    | [text] =>
      obtain rfl := List.mem_singleton.1 hline
      exact ⟨text, by simp, docstringMark, by simp, docstringMark, by simp, rfl⟩
    -- The marks stand on the first and the last line; the lines between have none.
    | first :: second :: rest =>
      rcases List.mem_cons.1 hline with rfl | hline
      · exact ⟨first, by simp, docstringMark, by simp, "", by simp, by simp⟩
      · rcases List.mem_append.1 hline with hinner | hlast
        · exact ⟨line, List.mem_cons_of_mem _ (List.dropLast_subset _ hinner), "", by simp, "",
            by simp, by simp⟩
        · obtain rfl := List.mem_singleton.1 hlast
          have hmem : (second :: rest).getLastD "" ∈ first :: second :: rest := by
            rw [List.getLastD_eq_getLast?,
              List.getLast?_eq_getLast_of_ne_nil (List.cons_ne_nil _ _)]
            exact List.mem_cons_of_mem _ (List.getLast_mem _)
          exact ⟨_, hmem, "", by simp, docstringMark, by simp, by simp⟩
  obtain ⟨line, hline, rfl⟩ := List.mem_map.1 h
  exact henclose _ line hline

/-- A line of a docstring keeps to the width, unless it is a word that cannot. -/
lemma utf8ByteSize_le_of_mem_docstring {comment line : String} (h : line ∈ docstring comment) :
    line.utf8ByteSize ≤ 80 ∨
      ∃ word ∈ words comment, 70 < word.utf8ByteSize ∧ Frames line word := by
  obtain ⟨text, htext, hframes⟩ := exists_frames_of_mem_docstring h
  have hwrap := isGreedyWrap_wrap comment 70
  have hsize := hframes.utf8ByteSize_le
  by_cases hlong : 70 < text.utf8ByteSize
  · right
    have hword : words text = [text] :=
      (hwrap.isLine text htext).fits.resolve_left (Nat.not_le.2 hlong)
    refine ⟨text, ?_, hlong, hframes⟩
    rw [← hwrap.words_eq]
    exact List.mem_flatMap.2 ⟨text, htext, by rw [hword]; exact List.mem_singleton_self text⟩
  · left
    omega

/-- **Wrapping is greedy.**  The lines of a text are the only greedy wrap of its words.  So lines
that are joined again, with blanks of any kind between them, are wrapped as before.  A line of a
docstring has at most 80 bytes, unless the text in it is a single word of more than 70. -/
theorem wrap_greedy (text : String) (width : Nat) :
    (∀ lines, IsGreedyWrap width (words text) lines ↔ lines = wrap text width) ∧
    (∀ gap, IsGap gap → wrap (gap.intercalate (wrap text width)) width = wrap text width) ∧
    ∀ line ∈ docstring text, line.utf8ByteSize ≤ 80 ∨
      ∃ word ∈ words text, 70 < word.utf8ByteSize ∧ Frames line word := by
  have hwrap := isGreedyWrap_wrap text width
  refine ⟨fun lines => ⟨fun h => h.eq hwrap, ?_⟩, ?_, ?_⟩
  · rintro rfl
    exact hwrap
  · exact fun gap hgap => hgap.wrap_intercalate text width
  · exact fun line => utf8ByteSize_le_of_mem_docstring

/-- A word that is longer than a line of a docstring. -/
def longWord : String :=
  "layers/recurrent/bidirectional/attention/multi-head/scaled-dot-product/projection"

/-- A comment with a long word between two short ones. -/
def longComment : String :=
  "see  " ++ longWord ++ "\tfor all of it"

/-- The long word has a line of its own.  The lines are a greedy wrap, they stay the same when they
are joined by line ends, and in the docstring the line of the long word is too long. -/
theorem wrap_greedy_longComment :
    IsGap "\n" ∧ wrap ("\n".intercalate (wrap longComment 8)) 8 = wrap longComment 8 ∧
      IsGreedyWrap 8 (words longComment) ["see", longWord, "for all", "of it"] ∧
      tab ++ longWord ∈ docstring longComment ∧ 80 < (tab ++ longWord).utf8ByteSize ∧
      ∃ word ∈ words longComment, 70 < word.utf8ByteSize ∧ Frames (tab ++ longWord) word := by
  have hgap : IsGap "\n" := by simp [IsGap, isBlank]
  have hlines : ["see", longWord, "for all", "of it"] = wrap longComment 8 := by decide
  have hline : tab ++ longWord ∈ docstring longComment := by decide
  have hlong : 80 < (tab ++ longWord).utf8ByteSize := by decide
  obtain ⟨hgreedy, hstable, hdocstring⟩ := wrap_greedy longComment 8
  exact ⟨hgap, hstable "\n" hgap, (hgreedy _).2 hlines, hline, hlong,
    (hdocstring _ hline).resolve_left (Nat.not_le.2 hlong)⟩

end Module

end NetDiagram
