import NetDiagram.Proofs.IdLists
import NetDiagram.Proofs.Literals
import NetDiagram.Proofs.Uses

/-!
# Line breaks

The generated module is put together as a list of lines and written as one text.  A line that has a
line break inside is more than one line to those who read the text.  This file has the two sides of
that: `Unbroken` texts, and the `physicalLines` into which a text is cut at every line feed and
carriage return.

## Main statements

* `flatMap_physicalLines_eq_self_iff`: lines are read as they were written exactly if none of them
  is broken.
* `Module.physicalLines_moduleText`: a module is read line by line.
-/

namespace NetDiagram

namespace Text

/-! ## Texts without line breaks -/

/-- The characters that end a line: line feed and carriage return. -/
def isBreak (c : Char) : Bool :=
  c == '\n' || c == '\r'

/-- The text has no line break. -/
def Unbroken (s : String) : Prop :=
  ∀ c ∈ s.toList, isBreak c = false

instance : DecidablePred Unbroken := fun s =>
  List.decidableBAll (fun c => isBreak c = false) s.toList

@[simp] lemma unbroken_append {s t : String} : Unbroken (s ++ t) ↔ Unbroken s ∧ Unbroken t := by
  simp only [Unbroken, String.toList_append, List.mem_append, or_imp, forall_and]

lemma unbroken_intercalate {separator : String} (h : Unbroken separator) (texts : List String) :
    Unbroken (separator.intercalate texts) ↔ ∀ text ∈ texts, Unbroken text := by
  induction texts with
  | nil => simp [Unbroken]
  | cons text texts ih =>
    by_cases hlast : texts = []
    · simp [hlast]
    · rw [String.intercalate_cons_of_ne_nil hlast, unbroken_append, unbroken_append, ih,
        List.forall_mem_cons]
      simp only [h, and_true]

/-- Escaping adds only backslashes. -/
lemma unbroken_quote {s : String} : Unbroken (quote s) ↔ Unbroken s := by
  have hbackslash : isBreak '\\' = false := rfl
  have hescape : ∀ cs : List Char,
      (∀ c ∈ escape cs, isBreak c = false) ↔ ∀ c ∈ cs, isBreak c = false := by
    intro cs
    induction cs with
    | nil => rfl
    | cons c cs ih =>
      rw [escape]
      split
      · simp [ih, hbackslash]
      · simp [ih]
  rw [Unbroken, toList_quote, List.forall_mem_cons, List.forall_mem_append, hescape]
  simp [isBreak, Unbroken]

lemma Unbroken.trimEnd {s : String} (h : Unbroken s) : Unbroken (trimEnd s) := by
  intro c hc
  rw [Text.trimEnd, String.toList_ofList] at hc
  exact h c ((dropTrailing_isPrefix _ _).subset hc)

/-! ## The lines of a text -/

lemma segments_cons_of_pos {p : Char → Bool} {c : Char} (h : p c = true) (cs : List Char) :
    segments p (c :: cs) = [] :: segments p cs := by
  rw [segments, if_pos h]

lemma exists_segments_cons_of_neg {p : Char → Bool} {c : Char} (h : p c = false) (cs : List Char) :
    ∃ first rest, segments p cs = first :: rest ∧ segments p (c :: cs) = (c :: first) :: rest := by
  obtain ⟨first, rest, hcs⟩ := List.exists_cons_of_ne_nil (segments_ne_nil p cs)
  exact ⟨first, rest, hcs, by simp [segments, h, hcs]⟩

lemma mem_of_mem_segments {p : Char → Bool} {cs piece : List Char} {c : Char}
    (h : piece ∈ segments p cs) (hc : c ∈ piece) : c ∈ cs := by
  induction cs generalizing piece with
  | nil =>
    obtain rfl : piece = [] := by simpa [segments] using h
    exact hc
  | cons x cs ih =>
    cases hx : p x with
    | true =>
      rw [segments_cons_of_pos hx] at h
      rcases List.mem_cons.1 h with rfl | hrest
      · simp at hc
      · exact List.mem_cons_of_mem _ (ih hrest hc)
    | false =>
      obtain ⟨first, rest, hcs, hsegments⟩ := exists_segments_cons_of_neg hx cs
      rw [hsegments] at h
      rcases List.mem_cons.1 h with rfl | hrest
      · rcases List.mem_cons.1 hc with rfl | hc
        · exact List.mem_cons_self
        · exact List.mem_cons_of_mem _ (ih (hcs ▸ List.mem_cons_self) hc)
      · exact List.mem_cons_of_mem _ (ih (hcs ▸ List.mem_cons_of_mem _ hrest) hc)

/-- The lines of a text: its pieces between line breaks. -/
def physicalLines (s : String) : List String :=
  (segments isBreak s.toList).map String.ofList

lemma unbroken_of_mem_physicalLines {s line : String} (h : line ∈ physicalLines s) :
    Unbroken line := by
  obtain ⟨piece, hpiece, rfl⟩ := List.mem_map.1 h
  intro c hc
  rw [String.toList_ofList] at hc
  exact not_of_mem_segments hpiece c hc

lemma physicalLines_of_unbroken {s : String} (h : Unbroken s) : physicalLines s = [s] := by
  rw [physicalLines, segments_eq_splitOnP, List.splitOnP_eq_singleton h, List.map_singleton,
    String.ofList_toList]

lemma physicalLines_append (s t : String) :
    physicalLines (s ++ "\n" ++ t) = physicalLines s ++ physicalLines t := by
  have hlist : (s ++ "\n" ++ t).toList = s.toList ++ '\n' :: t.toList := by simp
  have hcut : (s.toList ++ '\n' :: t.toList).splitOnP isBreak =
      s.toList.splitOnP isBreak ++ t.toList.splitOnP isBreak :=
    List.splitOnP_append_cons _ _ rfl
  simp only [physicalLines, segments_eq_splitOnP, hlist, hcut, List.map_append]

lemma physicalLines_intercalate {lines : List String} (h : lines ≠ []) :
    physicalLines ("\n".intercalate lines) = lines.flatMap physicalLines := by
  induction lines with
  | nil => exact absurd rfl h
  | cons line lines ih =>
    by_cases hlast : lines = []
    · simp [hlast]
    · rw [String.intercalate_cons_of_ne_nil hlast, physicalLines_append, ih hlast,
        List.flatMap_cons]

/-- An unbroken text belongs to the first line of what follows. -/
lemma exists_physicalLines_append {s : String} (h : Unbroken s) (t : String) :
    ∃ first rest, physicalLines t = first :: rest ∧
      physicalLines (s ++ t) = (s ++ first) :: rest := by
  have hpieces : ∀ cs : List Char, (∀ c ∈ cs, isBreak c = false) →
      ∃ first rest, segments isBreak t.toList = first :: rest ∧
        segments isBreak (cs ++ t.toList) = (cs ++ first) :: rest := by
    intro cs hcs
    induction cs with
    | nil =>
      obtain ⟨first, rest, ht⟩ := List.exists_cons_of_ne_nil (segments_ne_nil isBreak t.toList)
      exact ⟨first, rest, ht, ht⟩
    | cons c cs ih =>
      rw [List.forall_mem_cons] at hcs
      obtain ⟨first, rest, ht, hpiece⟩ := ih hcs.2
      obtain ⟨_, _, hpiece', hcons⟩ := exists_segments_cons_of_neg hcs.1 (cs ++ t.toList)
      obtain ⟨rfl, rfl⟩ := List.cons.inj (hpiece.symm.trans hpiece')
      exact ⟨first, rest, ht, hcons⟩
  obtain ⟨first, rest, ht, hpiece⟩ := hpieces s.toList h
  refine ⟨String.ofList first, rest.map String.ofList, by rw [physicalLines, ht, List.map_cons], ?_⟩
  rw [physicalLines, String.toList_append, hpiece, List.map_cons, String.ofList_append,
    String.ofList_toList]

/-- **Lines are read as they were written exactly if none of them is broken.** -/
theorem flatMap_physicalLines_eq_self_iff {lines : List String} :
    lines.flatMap physicalLines = lines ↔ ∀ line ∈ lines, Unbroken line := by
  constructor
  · intro h line hline
    rw [← h] at hline
    obtain ⟨whole, -, hpiece⟩ := List.mem_flatMap.1 hline
    exact unbroken_of_mem_physicalLines hpiece
  · intro h
    calc lines.flatMap physicalLines = lines.flatMap fun line => [line] :=
          List.flatMap_congr fun line hline => physicalLines_of_unbroken (h line hline)
      _ = lines := List.flatMap_singleton' lines

end Text

/-! ## The lines of a module -/

namespace Module

/-- **A module is read line by line.**  Its last line ends with a line feed, behind which there is
nothing. -/
theorem physicalLines_moduleText (s : Settings) (date : String) (c : Flow.Compilation) :
    Text.physicalLines (moduleText s date c) =
      (moduleLines s date c).flatMap Text.physicalLines ++ [""] := by
  have hlines : moduleLines s date c ≠ [] := by simp [moduleLines]
  have hend : moduleText s date c = "\n".intercalate (moduleLines s date c) ++ "\n" ++ "" := by
    rw [String.append_empty]
    rfl
  rw [hend, Text.physicalLines_append, Text.physicalLines_intercalate hlines,
    Text.physicalLines_of_unbroken (by simp [Text.Unbroken])]

end Module

end NetDiagram
