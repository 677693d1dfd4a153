/-!
# Blanks, trimming and splitting

Ids, argument items and comment words are all cut out of free text.  This file fixes what a
blank is (the Unicode property `White_Space`), how a text is trimmed at both ends, and how it
is cut at the characters of a class.  The working forms are on `List Char`; the functions on
`String` wrap them.

Main statements: a trimmed text starts and ends with no blank (`trimChars_eq_self_iff`), hence
trimming twice is trimming once (`trim_trim`).
-/

namespace NetDiagram.Text

/-- The characters with the Unicode property `White_Space`. -/
def isBlank (c : Char) : Bool :=
  let n := c.toNat
  (9 ≤ n && n ≤ 13) || n == 0x20 || n == 0x85 || n == 0xA0 || n == 0x1680 ||
    (0x2000 ≤ n && n ≤ 0x200A) || n == 0x2028 || n == 0x2029 || n == 0x202F ||
    n == 0x205F || n == 0x3000

/-! ## Trimming -/

/-- Drops the characters of the class at the end of the list. -/
def dropTrailing (p : Char → Bool) (cs : List Char) : List Char :=
  (cs.reverse.dropWhile p).reverse

/-- Drops the blanks at both ends. -/
def trimChars (cs : List Char) : List Char :=
  dropTrailing isBlank (cs.dropWhile isBlank)

/-- The text without the blanks at its two ends. -/
def trim (s : String) : String :=
  String.ofList (trimChars s.toList)

/-- The text without the blanks at its end. -/
def trimEnd (s : String) : String :=
  String.ofList (dropTrailing isBlank s.toList)

theorem dropWhile_eq_self_iff {p : Char → Bool} {cs : List Char} :
    cs.dropWhile p = cs ↔ ∀ c, cs.head? = some c → p c = false := by
  cases cs with
  | nil => simp
  | cons a as =>
    by_cases ha : p a
    · have hlen : (as.dropWhile p).length ≤ as.length := (List.dropWhile_sublist p).length_le
      constructor
      · intro h
        rw [List.dropWhile_cons_of_pos ha] at h
        have := congrArg List.length h
        simp only [List.length_cons] at this
        omega
      · intro h
        simp [h a rfl] at ha
    · simp [List.dropWhile_cons_of_neg ha, ha]

/-- What is left after trimming the end is a prefix of the list. -/
theorem dropTrailing_isPrefix (p : Char → Bool) (cs : List Char) :
    dropTrailing p cs <+: cs := by
  have h := @List.dropWhile_suffix _ cs.reverse p
  simpa [dropTrailing] using List.reverse_prefix.2 h

theorem dropTrailing_eq_self_iff {p : Char → Bool} {cs : List Char} :
    dropTrailing p cs = cs ↔ ∀ c, cs.getLast? = some c → p c = false := by
  have h : dropTrailing p cs = cs ↔ cs.reverse.dropWhile p = cs.reverse := by
    constructor
    · intro h
      exact List.reverse_inj.1 (by simpa [dropTrailing] using h)
    · intro h
      simp [dropTrailing, h]
  rw [h, dropWhile_eq_self_iff, List.head?_reverse]

theorem getLast?_dropTrailing_not {p : Char → Bool} {cs : List Char} {c : Char}
    (h : (dropTrailing p cs).getLast? = some c) : p c = false := by
  simp only [dropTrailing, List.getLast?_reverse] at h
  have hhead := List.head?_dropWhile_not p cs.reverse
  rwa [h] at hhead

theorem head?_trimChars_not {cs : List Char} {c : Char}
    (h : (trimChars cs).head? = some c) : isBlank c = false := by
  obtain ⟨t, ht⟩ := dropTrailing_isPrefix isBlank (cs.dropWhile isBlank)
  have hhead := List.head?_dropWhile_not isBlank cs
  rw [trimChars] at h
  rw [← ht, List.head?_append, h] at hhead
  exact hhead

/-- A list is trimmed exactly when neither its first nor its last character is blank. -/
theorem trimChars_eq_self_iff {cs : List Char} :
    trimChars cs = cs ↔ (∀ c, cs.head? = some c → isBlank c = false) ∧
      (∀ c, cs.getLast? = some c → isBlank c = false) := by
  constructor
  · intro h
    refine ⟨fun c hc => @head?_trimChars_not cs c (by rw [h]; exact hc), fun c hc => ?_⟩
    refine @getLast?_dropTrailing_not isBlank (cs.dropWhile isBlank) c ?_
    simp only [trimChars] at h
    rw [h]
    exact hc
  · rintro ⟨hh, hl⟩
    rw [trimChars, dropWhile_eq_self_iff.2 hh, dropTrailing_eq_self_iff.2 hl]

theorem trimChars_trimChars (cs : List Char) : trimChars (trimChars cs) = trimChars cs :=
  trimChars_eq_self_iff.2
    ⟨fun _ h => head?_trimChars_not h, fun _ h => getLast?_dropTrailing_not h⟩

@[simp]
theorem toList_trim (s : String) : (trim s).toList = trimChars s.toList := by
  simp [trim]

/-- Trimming twice is trimming once. -/
@[simp]
theorem trim_trim (s : String) : trim (trim s) = trim s := by
  simp [trim, trimChars_trimChars]

/-! ## Splitting -/

/-- Cuts a list at every character of the class: the pieces between two cuts, empty pieces
included, so there is always one piece more than there are cuts. -/
def segments (p : Char → Bool) : List Char → List (List Char)
  | [] => [[]]
  | c :: cs =>
    if p c then [] :: segments p cs
    else
      match segments p cs with
      | [] => [[c]]
      | piece :: pieces => (c :: piece) :: pieces

/-- Cuts a text at every occurrence of the separator. -/
def splitAt (separator : Char) (s : String) : List String :=
  (segments (· == separator) s.toList).map String.ofList

/-- The words of a text: its maximal runs of characters that are not blank. -/
def words (s : String) : List String :=
  ((segments isBlank s.toList).filter (!·.isEmpty)).map String.ofList

theorem segments_ne_nil (p : Char → Bool) (cs : List Char) : segments p cs ≠ [] := by
  cases cs with
  | nil => simp [segments]
  | cons c cs =>
    simp only [segments]
    split
    · simp
    · split <;> simp

end NetDiagram.Text
