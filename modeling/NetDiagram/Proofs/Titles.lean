import NetDiagram.Proofs.Letters

/-!
# Titles

The name of a class is made from a free text in three steps: the text is capitalized, all but its
word characters is left out, and a digit at the start is put behind an underscore.  Two things
follow from the order of the steps and from what counts as a digit.

The first character of the text is the one in upper case, whether it is a word character or not.
So a text that begins with a blank loses its capital with it (`title_strip_iff`), and the title may
then be any word of the language that is reserved for other use.

Only `0` to `9` are put behind an underscore, but the numerals of other scripts are word characters
too (`title_isClassName_iff`).

## Main statements

* `filter_flatMap_lower`: changing the case of letters and leaving characters out can be swapped.
* `title_mem_reservedWords_iff`: which texts have a reserved word as their title.
* `title_isClassName_iff`: which texts have a title that can be the name of a class.
* `title_strip_iff`: which texts have the title of their word characters.
-/

namespace NetDiagram.Module

open Text (CaseForm SameKind isNumeric)

variable {c : Char} {cs image : List Char}

/-! ## Word characters and case -/

lemma isTitleChar_of_isAlphanumeric (h : Text.isAlphanumeric c = true) : isTitleChar c = true := by
  rw [isTitleChar, h, Bool.true_or]

lemma isTitleChar_ofNat {n : Nat} (h : Text.inRanges Text.alphanumericRanges n = true) :
    isTitleChar (Char.ofNat n) = true := by
  refine isTitleChar_of_isAlphanumeric ?_
  rw [Text.isAlphanumeric, Text.toNat_ofNat_of_alphanumeric h, h]

/-- Blanks, line ends and the marks of paths are no word characters. -/
lemma isTitleChar_eq_false (h : c ∈ [' ', '\n', '\r', '\x00', '.', '/', '\\']) :
    isTitleChar c = false := by
  have hmarks : [' ', '\n', '\r', '\x00', '.', '/', '\\'].all (!isTitleChar ·) = true := by
    decide +kernel
  simpa using List.all_eq_true.1 hmarks c h

lemma filter_eq_nil_of_caseForm (h : CaseForm c image) (hc : isTitleChar c = false) :
    image.filter isTitleChar = [] := by
  rcases h with rfl | ⟨hletter, -⟩
  · simp [hc]
  · rw [isTitleChar_of_isAlphanumeric hletter] at hc
    exact absurd hc (by decide)

/-- The first character of another form of a word character is a word character of the same kind. -/
lemma exists_filter_of_caseForm (h : CaseForm c image) (hc : isTitleChar c = true) :
    ∃ x xs, image = x :: xs ∧ image.filter isTitleChar = x :: xs.filter isTitleChar ∧
      SameKind c x := by
  rcases h with rfl | ⟨hletter, x, xs, rfl, hkind, -⟩
  · exact ⟨c, [], rfl, by simp [hc], ⟨rfl, rfl, rfl⟩⟩
  · have hx : isTitleChar x = true :=
      isTitleChar_of_isAlphanumeric (hkind.alphanumeric.trans hletter)
    exact ⟨x, xs, rfl, List.filter_cons_of_pos hx, hkind⟩

/-- **Leaving characters out before the case is changed makes no difference.** -/
theorem filter_flatMap_lower (cs : List Char) :
    ((cs.filter isTitleChar).flatMap Text.lower).filter isTitleChar =
      (cs.flatMap Text.lower).filter isTitleChar := by
  induction cs with
  | nil => rfl
  | cons c cs ih =>
    rw [List.flatMap_cons, List.filter_append]
    cases hc : isTitleChar c with
    | true =>
      rw [List.filter_cons_of_pos hc, List.flatMap_cons, List.filter_append, ih]
    | false =>
      rw [List.filter_cons_of_neg (by simp [hc]), ih,
        filter_eq_nil_of_caseForm (Text.caseForm_lower c) hc, List.nil_append]

lemma filter_capitalizeChars_cons (c : Char) (cs : List Char) :
    (Text.capitalizeChars (c :: cs)).filter isTitleChar =
      (Text.upper c).filter isTitleChar ++ (cs.flatMap Text.lower).filter isTitleChar := by
  rw [Text.capitalizeChars, List.filter_append]

/-- The first word character of a text is the one that its title begins with, in one case or the
other. -/
lemma exists_filter_capitalizeChars (h : cs.find? isTitleChar = some c) :
    ∃ x xs, (Text.capitalizeChars cs).filter isTitleChar = x :: xs ∧ SameKind c x := by
  have hc : isTitleChar c = true := List.find?_some h
  cases cs with
  | nil => simp at h
  | cons first cs =>
    rw [filter_capitalizeChars_cons]
    -- If the text begins with another character, that one is capitalized and left out.
    cases hfirst : isTitleChar first with
    | true =>
      rw [List.find?_cons_of_pos hfirst] at h
      obtain rfl := Option.some.inj h
      obtain ⟨x, xs, -, hfilter, hkind⟩ := exists_filter_of_caseForm (Text.caseForm_upper first) hc
      exact ⟨x, _, by rw [hfilter, List.cons_append], hkind⟩
    | false =>
      rw [List.find?_cons_of_neg (by simp [hfirst]), ← List.head?_filter] at h
      obtain ⟨rest, hrest⟩ := List.head?_eq_some_iff.1 h
      obtain ⟨x, xs, -, hfilter, hkind⟩ := exists_filter_of_caseForm (Text.caseForm_lower c) hc
      rw [filter_eq_nil_of_caseForm (Text.caseForm_upper first) hfirst, List.nil_append,
        ← filter_flatMap_lower, hrest, List.flatMap_cons, List.filter_append, hfilter]
      exact ⟨x, _, List.cons_append, hkind⟩

lemma filter_capitalizeChars_eq_nil (h : cs.find? isTitleChar = none) :
    (Text.capitalizeChars cs).filter isTitleChar = [] := by
  cases cs with
  | nil => rfl
  | cons first cs =>
    have hnone := List.find?_eq_none.1 h
    have hfirst : isTitleChar first = false := by simpa using hnone first List.mem_cons_self
    have hrest : cs.filter isTitleChar = [] :=
      List.filter_eq_nil_iff.2 fun x hx => hnone x (List.mem_cons_of_mem _ hx)
    rw [filter_capitalizeChars_cons, filter_eq_nil_of_caseForm (Text.caseForm_upper first) hfirst,
      ← filter_flatMap_lower, hrest]
    rfl

/-! ## The text of a title -/

/-- The title with the given word characters: a digit does not begin it, and it is not empty. -/
def entitle : List Char → String
  | [] => fallbackTitle
  | c :: cs => String.ofList (if isDigit c then '_' :: c :: cs else c :: cs)

lemma title_eq (name : String) :
    title name = entitle ((Text.capitalizeChars name.toList).filter isTitleChar) := rfl

lemma toList_entitle_cons (c : Char) (cs : List Char) :
    (entitle (c :: cs)).toList = if isDigit c then '_' :: c :: cs else c :: cs := by
  rw [entitle, String.toList_ofList]

lemma entitle_ne_empty (cs : List Char) : entitle cs ≠ "" := by
  cases cs with
  | nil => decide
  | cons c cs =>
    intro h
    have hlist := congrArg String.toList h
    rw [toList_entitle_cons] at hlist
    split at hlist <;> simp at hlist

lemma mem_entitle (h : c ∈ cs) : c ∈ (entitle cs).toList := by
  cases cs with
  | nil => simp at h
  | cons x cs =>
    rw [toList_entitle_cons]
    split
    · exact List.mem_cons_of_mem _ h
    · exact h

lemma isTitleChar_of_mem_entitle (h : ∀ x ∈ cs, isTitleChar x = true)
    (hc : c ∈ (entitle cs).toList) : isTitleChar c = true := by
  cases cs with
  | nil =>
    have hfallback : fallbackTitle.toList.all isTitleChar = true := by decide
    exact List.all_eq_true.1 hfallback c hc
  | cons x cs =>
    rw [toList_entitle_cons] at hc
    split at hc
    · rcases List.mem_cons.1 hc with rfl | hc
      · simp [isTitleChar]
      · exact h c hc
    · exact h c hc

lemma head?_entitle_nil : (entitle []).toList.head? = some 'M' := by
  decide

lemma head?_entitle_cons (c : Char) (cs : List Char) :
    (entitle (c :: cs)).toList.head? = some (if isDigit c then '_' else c) := by
  rw [toList_entitle_cons]
  split <;> rfl

lemma title_ne_empty (name : String) : title name ≠ "" :=
  entitle_ne_empty _

lemma isTitleChar_of_mem_title {name : String} (h : c ∈ (title name).toList) :
    isTitleChar c = true :=
  isTitleChar_of_mem_entitle (fun _ hx => (List.mem_filter.1 hx).2) h

/-! ## Reserved words -/

/-- The words that cannot be the name of a class. -/
def reservedWords : List String :=
  ["False", "None", "True", "and", "as", "assert", "async", "await", "break", "class", "continue",
    "def", "del", "elif", "else", "except", "finally", "for", "from", "global", "if", "import",
    "in", "is", "lambda", "nonlocal", "not", "or", "pass", "raise", "return", "try", "while",
    "with", "yield"]

/-- The reserved words that begin with a capital, each with the characters that become it. -/
def constants : List (List Char × String) :=
  [(['n', 'N'], "None"), (['t', 'T', 'ẗ'], "True"), (['f', 'F'], "False")]

/-- The text becomes a reserved word: it begins with a word character and spells a constant in any
case, or it begins with another character, and then its letters in lower case are a reserved
word. -/
def SpellsReserved (name : String) : Prop :=
  match name.toList with
  | [] => False
  | c :: cs =>
    if isTitleChar c then
      ∃ constant ∈ constants, c ∈ constant.1 ∧
        (cs.flatMap Text.lower).filter isTitleChar = constant.2.toList.tail
    else String.ofList ((cs.flatMap Text.lower).filter isTitleChar) ∈ reservedWords

/-- Whether the character is one of `a` to `z`. -/
def isSmall (c : Char) : Bool :=
  97 ≤ c.toNat && c.toNat ≤ 122

/-- No reserved word begins with a digit or an underscore, and only the constants do not begin with
a small letter. -/
lemma head?_of_mem_reservedWords :
    ∀ w ∈ reservedWords, w.toList.head?.any (fun x => !isDigit x && x != '_') = true ∧
      (w.toList.head?.any isSmall || constants.any (·.2 == w)) = true := by
  decide

lemma constants_spec :
    ∀ constant ∈ constants, constant.2 ∈ reservedWords ∧ constant.2.toList.tail.all isSmall = true ∧
      constant.1.all (fun c => (Text.upper c).filter isTitleChar == constant.2.toList.take 1) =
        true := by
  decide +kernel

lemma isSmall_eq_false_of_mem_upper {x : Char} (h : x ∈ Text.upper c) : isSmall x = false := by
  -- No small letter is its own upper-case form, and none is in an image of the table.
  have hself : ∀ k < 26, Text.upper (Char.ofNat (97 + k)) ≠ [Char.ofNat (97 + k)] := by
    decide
  have hentries : ∀ e ∈ Text.caseEntries Text.upperExpansions Text.upperRuns,
      ∀ n ∈ e.2, n < 97 ∨ 122 < n := by
    decide +kernel
  rw [Bool.eq_false_iff]
  intro hsmall
  simp only [isSmall, Bool.and_eq_true, decide_eq_true_eq] at hsmall
  rcases Text.caseImage_cases Text.upperExpansions Text.upperRuns c with hc | ⟨e, he, -, himage⟩
  · rw [Text.upper, hc, List.mem_singleton] at h
    subst h
    refine hself (x.toNat - 97) (by omega) ?_
    rw [Nat.add_sub_cancel' hsmall.1, Char.ofNat_toNat]
    exact hc
  · rw [Text.upper, himage] at h
    obtain ⟨n, hn, rfl⟩ := List.mem_map.1 h
    have hrange := hentries e he n hn
    rcases Text.toNat_ofNat_cases n with hvalue | hvalue <;> omega

/-- Only the characters of the table become the capital of a constant and nothing else. -/
lemma mem_of_filter_upper {constant : List Char × String} (h : constant ∈ constants) {x : Char}
    (hx : constant.2.toList.head? = some x) (hc : (Text.upper c).filter isTitleChar = [x]) :
    c ∈ constant.1 := by
  have hself : ∀ constant ∈ constants, constant.2.toList.head?.all
      (fun x => x.toNat ≤ 90 && constant.1.contains x) = true := by
    decide
  -- an image that goes on with another letter is not the capital alone
  have hentries : ∀ e ∈ Text.caseEntries Text.upperExpansions Text.upperRuns,
      (90 < e.2.headD 0 || constants.all fun constant =>
        constant.2.toList.head? != some (Char.ofNat (e.2.headD 0)) ||
          constant.1.contains (Char.ofNat e.1) ||
          e.2.tail.head?.any fun n => Text.inRanges Text.alphanumericRanges n) = true := by
    simp only [← Text.testBit_rangeBits]
    decide +kernel
  have hcapital := hself constant h
  simp only [hx, Option.all_some, Bool.and_eq_true, decide_eq_true_eq, List.contains_iff_mem]
    at hcapital
  rcases Text.caseImage_cases Text.upperExpansions Text.upperRuns c with
    hupper | ⟨e, he, hsource, himage⟩
  · have hmem : x ∈ [c] := by
      rw [← hupper]
      exact (List.mem_filter.1 (hc ▸ List.mem_singleton_self x)).1
    rw [← List.mem_singleton.1 hmem]
    exact hcapital.2
  · have hentry := Text.letterEntry_upper he
    have hletter := hentry.2.2.2.1
    rw [Text.upper, himage, hentry.eq_cons, List.map_cons,
      List.filter_cons_of_pos (isTitleChar_ofNat hletter)] at hc
    obtain ⟨rfl, hrest⟩ := List.cons.inj hc
    rw [Text.toNat_ofNat_of_alphanumeric hletter] at hcapital
    have hcheck := hentries e he
    rw [Bool.or_eq_true, decide_eq_true_eq, or_iff_right (Nat.not_lt.2 hcapital.1)] at hcheck
    have hconstant := List.all_eq_true.1 hcheck constant h
    rw [hx, bne_self_eq_false, Bool.false_or, Bool.or_eq_true, List.contains_iff_mem, hsource,
      Char.ofNat_toNat] at hconstant
    refine hconstant.resolve_right fun hnext => ?_
    obtain ⟨n, hn, hnext⟩ := (Option.any_eq_true _ _).1 hnext
    have hmem : Char.ofNat n ∈ (e.2.tail.map Char.ofNat).filter isTitleChar :=
      List.mem_filter.2 ⟨List.mem_map_of_mem (List.mem_of_head? hn), isTitleChar_ofNat hnext⟩
    rw [hrest] at hmem
    simp at hmem

lemma entitle_mem_reservedWords_iff (cs : List Char) :
    entitle cs ∈ reservedWords ↔ String.ofList cs ∈ reservedWords := by
  cases cs with
  | nil => decide
  | cons c cs =>
    cases hc : isDigit c with
    | false => rw [entitle, if_neg (by simp [hc])]
    | true =>
      refine iff_of_false (fun h => ?_) (fun h => ?_)
      · have hhead := (head?_of_mem_reservedWords _ h).1
        simp [head?_entitle_cons, hc] at hhead
      · have hhead := (head?_of_mem_reservedWords _ h).1
        simp [hc] at hhead

/-- **Which texts have a reserved word as their title.** -/
theorem title_mem_reservedWords_iff (name : String) :
    title name ∈ reservedWords ↔ SpellsReserved name := by
  rw [title_eq, entitle_mem_reservedWords_iff, SpellsReserved]
  cases name.toList with
  | nil => decide
  | cons c cs =>
    rw [filter_capitalizeChars_cons]
    generalize hrest : (cs.flatMap Text.lower).filter isTitleChar = rest
    dsimp only
    rw [hrest]
    cases hc : isTitleChar c with
    | false =>
      rw [filter_eq_nil_of_caseForm (Text.caseForm_upper c) hc, List.nil_append, if_neg (by simp)]
    | true =>
      rw [if_pos rfl]
      obtain ⟨x, xs, hupper, hfilter, -⟩ := exists_filter_of_caseForm (Text.caseForm_upper c) hc
      constructor
      · intro h
        rw [hfilter, List.cons_append] at h
        have hx : isSmall x = false := isSmall_eq_false_of_mem_upper (hupper ▸ List.mem_cons_self)
        -- a title that begins with a capital is a constant, and all its other letters are small
        obtain ⟨constant, hconstant, heq⟩ : ∃ constant ∈ constants,
            constant.2 = String.ofList (x :: (xs.filter isTitleChar ++ rest)) := by
          have hhead := (head?_of_mem_reservedWords _ h).2
          simpa [hx] using hhead
        have hlist : constant.2.toList = x :: (xs.filter isTitleChar ++ rest) := by
          rw [heq, String.toList_ofList]
        obtain ⟨-, hsmall, -⟩ := constants_spec constant hconstant
        rw [hlist, List.tail_cons, List.all_append, Bool.and_eq_true] at hsmall
        have hone : xs.filter isTitleChar = [] := by
          refine List.eq_nil_iff_forall_not_mem.2 fun y hy => ?_
          have hupper : isSmall y = false := isSmall_eq_false_of_mem_upper
            (hupper ▸ List.mem_cons_of_mem x (List.mem_filter.1 hy).1)
          simp [List.all_eq_true.1 hsmall.1 y hy] at hupper
        rw [hone] at hfilter hlist
        exact ⟨constant, hconstant, mem_of_filter_upper hconstant (by rw [hlist]; rfl) hfilter,
          by rw [hlist]; rfl⟩
      · rintro ⟨constant, hconstant, hmem, rfl⟩
        obtain ⟨hreserved, -, hfirst⟩ := constants_spec constant hconstant
        have hcapital := List.all_eq_true.1 hfirst c hmem
        rw [beq_iff_eq] at hcapital
        rwa [hcapital, ← List.drop_one, List.take_append_drop, String.ofList_toList]

/-! ## Names of classes -/

/-- **What the name of a class has to be like.**  It has word characters only and does not begin
with a numeral of any script, and it is not reserved. -/
structure IsClassName (s : String) : Prop where
  ne_empty : s ≠ ""
  word : ∀ c ∈ s.toList, isTitleChar c = true
  start : ∀ c ∈ s.toList.head?, isNumeric c = false
  free : s ∉ reservedWords

/-- A title begins with a numeral exactly if the first word character of the text is one that is not
put behind an underscore. -/
lemma isNumeric_head?_title_iff (name : String) :
    (∀ c ∈ (title name).toList.head?, isNumeric c = false) ↔
      ∀ c ∈ name.toList.find? isTitleChar, isNumeric c = true → isDigit c = true := by
  rw [title_eq]
  cases hfind : name.toList.find? isTitleChar with
  | none =>
    have hfallback : isNumeric 'M' = false := by decide
    rw [filter_capitalizeChars_eq_nil hfind, head?_entitle_nil]
    simp [hfallback]
  | some c =>
    obtain ⟨x, xs, hfilter, hkind⟩ := exists_filter_capitalizeChars hfind
    have hunderscore : isNumeric '_' = false := by decide
    rw [hfilter, head?_entitle_cons]
    simp only [Option.mem_some_iff, forall_eq']
    rw [← hkind.numeric, ← hkind.digit]
    -- A digit is put behind an underscore; other numbers stay in front.
    cases isDigit x with
    | true => simp [hunderscore]
    | false => simp

lemma isDigit_head?_title {name : String} (h : c ∈ (title name).toList.head?) :
    isDigit c = false := by
  rw [title_eq] at h
  cases hfilter : (Text.capitalizeChars name.toList).filter isTitleChar with
  | nil =>
    rw [hfilter, head?_entitle_nil] at h
    obtain rfl := Option.some.inj h
    decide
  | cons x xs =>
    rw [hfilter, head?_entitle_cons] at h
    obtain rfl := Option.some.inj h
    split
    · decide
    · rename_i hx
      simpa using hx

/-- **Which texts have a title that can be the name of a class.**  A title is never empty, has word
characters only and does not begin with a digit.  It is the name of a class unless the first word
character of the text is a numeral of another script, or the text becomes a reserved word. -/
theorem title_isClassName_iff (name : String) :
    title name ≠ "" ∧ (∀ c ∈ (title name).toList, isTitleChar c = true) ∧
      (∀ c ∈ (title name).toList.head?, isDigit c = false) ∧
      (IsClassName (title name) ↔
        (∀ c ∈ name.toList.find? isTitleChar, isNumeric c = true → isDigit c = true) ∧
          ¬ SpellsReserved name) := by
  have hne := title_ne_empty name
  have hword : ∀ c ∈ (title name).toList, isTitleChar c = true := fun _ => isTitleChar_of_mem_title
  refine ⟨hne, hword, fun _ => isDigit_head?_title, ?_⟩
  rw [← isNumeric_head?_title_iff, ← title_mem_reservedWords_iff]
  exact ⟨fun h => ⟨h.start, h.free⟩, fun h => ⟨hne, hword, h.1, h.2⟩⟩

/-- A text that begins with a digit and has letters of several scripts, some of which change. -/
theorem title_isClassName_iff_mixed :
    title "3-Ǆ ΝΕΤ_İ\n" = "_3ǆνετ_i" ∧ IsClassName "_3ǆνετ_i" := by
  have htitle : title "3-Ǆ ΝΕΤ_İ\n" = "_3ǆνετ_i" := by decide +kernel
  have hfirst : "3-Ǆ ΝΕΤ_İ\n".toList.find? isTitleChar = some '3' := by decide
  have hreserved : ¬ SpellsReserved "3-Ǆ ΝΕΤ_İ\n" := by
    rw [← title_mem_reservedWords_iff, htitle]
    decide
  obtain ⟨-, -, -, hiff⟩ := title_isClassName_iff "3-Ǆ ΝΕΤ_İ\n"
  rw [htitle, hfirst] at hiff
  exact ⟨htitle, hiff.2 ⟨by simp [isDigit], hreserved⟩⟩

/-- Three titles that cannot be the names of classes: a constant, a word that is reserved in lower
case, and one that begins with a numeral. -/
theorem title_not_className :
    title "none" = "None" ∧ title " class" = "class" ∧ title "٣d net" = "٣dnet" ∧
      ¬ IsClassName "None" ∧ ¬ IsClassName "class" ∧ ¬ IsClassName "٣dnet" := by
  have hnumeral : isNumeric '٣' = true := by decide
  have hfirst : "٣dnet".toList.head? = some '٣' := by decide
  refine ⟨by decide +kernel, by decide +kernel, by decide +kernel, ?_, ?_, ?_⟩
  · exact fun h => h.free (by decide)
  · exact fun h => h.free (by decide)
  · intro h
    rw [h.start '٣' hfirst] at hnumeral
    exact absurd hnumeral (by decide)

/-! ## Word characters alone -/

/-- The word characters of a text. -/
def strip (name : String) : String :=
  String.ofList (name.toList.filter isTitleChar)

/-- The title of a text that is stripped first and capitalized then. -/
def strippedTitle (name : String) : String :=
  entitle (Text.capitalizeChars (strip name).toList)

lemma entitle_cons_inj {x y : Char} {xs ys : List Char} (h : isDigit x = isDigit y) :
    entitle (x :: xs) = entitle (y :: ys) ↔ x :: xs = y :: ys := by
  rw [← String.toList_inj, toList_entitle_cons, toList_entitle_cons, h]
  cases isDigit y with
  | true => simp
  | false => simp

/-- **When the word characters of a text have the same title.** -/
theorem title_strip_eq_iff (name : String) :
    title (strip name) = title name ↔ ∀ c ∈ name.toList.find? isTitleChar,
      name.toList.head? = some c ∨ Text.upper c = Text.lower c := by
  rw [title_eq, title_eq, strip, String.toList_ofList]
  cases name.toList with
  | nil => simp
  | cons first cs =>
    rw [filter_capitalizeChars_cons first cs]
    cases hfirst : isTitleChar first with
    | true =>
      rw [List.filter_cons_of_pos hfirst, filter_capitalizeChars_cons, filter_flatMap_lower,
        List.find?_cons_of_pos hfirst]
      simp
    | false =>
      rw [List.filter_cons_of_neg (by simp [hfirst]), List.find?_cons_of_neg (by simp [hfirst]),
        filter_eq_nil_of_caseForm (Text.caseForm_upper first) hfirst, List.nil_append,
        ← filter_flatMap_lower, ← List.head?_filter]
      cases hrest : cs.filter isTitleChar with
      | nil => simp [Text.capitalizeChars]
      | cons c rest =>
        have hc : isTitleChar c = true := (List.mem_filter.1 (hrest ▸ List.mem_cons_self)).2
        have hne : first ≠ c := by
          rintro rfl
          simp [hc] at hfirst
        obtain ⟨x, xs, hupper, hfilter, hkind⟩ :=
          exists_filter_of_caseForm (Text.caseForm_upper c) hc
        obtain ⟨y, ys, hlower, hfilter', hkind'⟩ :=
          exists_filter_of_caseForm (Text.caseForm_lower c) hc
        -- the two titles differ in the case of this character only
        rw [filter_capitalizeChars_cons, List.flatMap_cons, List.filter_append, hfilter, hfilter',
          List.cons_append, List.cons_append,
          entitle_cons_inj (hkind.digit.trans hkind'.digit.symm)]
        simp only [List.head?_cons, Option.mem_some_iff, forall_eq', Option.some.injEq, hne,
          false_or]
        constructor
        · intro h
          have hhead : (Text.upper c).head? = (Text.lower c).head? := by
            rw [hupper, hlower, (List.cons.inj h).1]
            rfl
          obtain ⟨hself, hself'⟩ := Text.caseless_of_head?_eq hhead
          rw [hself, hself']
        · intro h
          rw [hupper, hlower] at h
          obtain ⟨rfl, rfl⟩ := List.cons.inj h
          rfl

/-- Stripping a text before it is capitalized gives the same title, unless capitalizing makes
characters that are left out otherwise. -/
lemma title_eq_strippedTitle_iff (name : String) :
    title name = strippedTitle name ↔ title (strip name) = title name ∧
      ∀ x ∈ Text.capitalizeChars (strip name).toList, isTitleChar x = true := by
  have hkept : (∀ x ∈ Text.capitalizeChars (strip name).toList, isTitleChar x = true) →
      title (strip name) = strippedTitle name := by
    intro h
    rw [title_eq, List.filter_eq_self.2 h, strippedTitle]
  constructor
  · intro h
    have hword : ∀ x ∈ Text.capitalizeChars (strip name).toList, isTitleChar x = true := by
      intro x hx
      have hmem : x ∈ (title name).toList := h ▸ mem_entitle hx
      exact isTitleChar_of_mem_title hmem
    exact ⟨(hkept hword).trans h.symm, hword⟩
  · rintro ⟨h, hword⟩
    rw [← h, hkept hword]

/-- A title depends on the word characters, and on whether the text begins with one of them. -/
lemma title_eq_title_strip (name : String) :
    title name = title
      (if name.toList.head?.any isTitleChar then strip name else " " ++ strip name) := by
  have hblank : isTitleChar ' ' = false := isTitleChar_eq_false (by simp)
  have hstrip : (" " ++ strip name).toList = ' ' :: name.toList.filter isTitleChar := by
    simp [strip]
  rw [title_eq, title_eq]
  -- A blank in front stands for whatever took the capital in the text.
  refine congrArg entitle ?_
  cases hname : name.toList with
  | nil =>
    rw [List.head?_nil, Option.any_none, if_neg (by simp), hstrip, hname,
      filter_capitalizeChars_cons, filter_eq_nil_of_caseForm (Text.caseForm_upper ' ') hblank]
    rfl
  | cons first cs =>
    rw [List.head?_cons, Option.any_some, filter_capitalizeChars_cons, ← filter_flatMap_lower]
    cases hfirst : isTitleChar first with
    | true =>
      rw [if_pos rfl, strip, String.toList_ofList, hname, List.filter_cons_of_pos hfirst,
        filter_capitalizeChars_cons]
    | false =>
      rw [if_neg (by simp), hstrip, hname, List.filter_cons_of_neg (by simp [hfirst]),
        filter_capitalizeChars_cons, filter_eq_nil_of_caseForm (Text.caseForm_upper ' ') hblank,
        filter_eq_nil_of_caseForm (Text.caseForm_upper first) hfirst]

/-- **A blank at the start costs the capital.**  The word characters of a text have the same title
exactly if the text begins with the first of them, or this has no case.  What stands between them
and behind them never matters: a title is that of the word characters, with or without a blank
before them.  It is the title of the stripped and capitalized text exactly if moreover all
characters of that text are word characters. -/
theorem title_strip_iff (name : String) :
    (title (strip name) = title name ↔ ∀ c ∈ name.toList.find? isTitleChar,
      name.toList.head? = some c ∨ Text.upper c = Text.lower c) ∧
    title name = title
      (if name.toList.head?.any isTitleChar then strip name else " " ++ strip name) ∧
    (title name = strippedTitle name ↔ title (strip name) = title name ∧
      ∀ x ∈ Text.capitalizeChars (strip name).toList, isTitleChar x = true) :=
  ⟨title_strip_eq_iff name, title_eq_title_strip name, title_eq_strippedTitle_iff name⟩

/-- Before a digit, which has no case, a bracket at the start does no harm. -/
theorem title_strip_iff_numbered :
    "(2) ß-NET".toList.find? isTitleChar = some '2' ∧ Text.upper '2' = Text.lower '2' ∧
      title (strip "(2) ß-NET") = title "(2) ß-NET" := by
  have hfirst : "(2) ß-NET".toList.find? isTitleChar = some '2' := by decide +kernel
  have hcase : Text.upper '2' = Text.lower '2' := by decide
  obtain ⟨hstrip, -, -⟩ := title_strip_iff "(2) ß-NET"
  refine ⟨hfirst, hcase, hstrip.2 ?_⟩
  rw [hfirst]
  simp [hcase]

/-- A blank at the start costs the capital.  Stripped first, a text may get characters that are left
out otherwise: here the dot above a small letter. -/
theorem title_not_stripped :
    title (strip " my net") = "Mynet" ∧ title " my net" = "mynet" ∧
      strippedTitle "aİ" = "Ai\u0307" ∧ title "aİ" = "Ai" := by
  refine ⟨?_, ?_, ?_, ?_⟩ <;> decide +kernel

end NetDiagram.Module
