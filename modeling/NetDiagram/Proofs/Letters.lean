import Mathlib.Algebra.Group.Nat.Defs
import NetDiagram.Module.Title

/-!
# Letters, numerals and case

The names of classes and files are made by changing the case of letters and by leaving out what is
neither a letter nor a digit.  This file has what these steps need to know of the tables: a
character that has another case is a letter, and so is the first character of its other form.  Among
the numerals there are Roman ones with two cases; none of the digits `0` to `9` is one of them.

The tables have hundreds of ranges, and looking one code point up after another in them is slow.
So the ranges are first turned into the binary digits of one number.

## Main statements

* `testBit_rangeBits`: a code point lies in the ranges exactly if its binary digit is set.
* `caseImage_cases`: what a case mapping does to a character is said by one entry of its table.
* `caseForm_upper`, `caseForm_lower`: a case mapping leaves a character as it is, or it is a letter
  whose image begins with another one of the same kind.
* `caseless_of_head?_eq`: a character whose two forms begin alike has no case.
-/

namespace NetDiagram.Text

/-! ## Numerals -/

/-- The ranges of numerals of any script (the categories `Nd`, `Nl` and `No`), in increasing
order. -/
def numericRanges : List (Nat × Nat) := [
  (48, 57), (178, 179), (185, 185), (188, 190), (1632, 1641), (1776, 1785), (1984, 1993),
  (2406, 2415), (2534, 2543), (2548, 2553), (2662, 2671), (2790, 2799), (2918, 2927), (2930, 2935),
  (3046, 3058), (3174, 3183), (3192, 3198), (3302, 3311), (3416, 3422), (3430, 3448), (3558, 3567),
  (3664, 3673), (3792, 3801), (3872, 3891), (4160, 4169), (4240, 4249), (4969, 4988), (5870, 5872),
  (6112, 6121), (6128, 6137), (6160, 6169), (6470, 6479), (6608, 6618), (6784, 6793), (6800, 6809),
  (6992, 7001), (7088, 7097), (7232, 7241), (7248, 7257), (8304, 8304), (8308, 8313), (8320, 8329),
  (8528, 8578), (8581, 8585), (9312, 9371), (9450, 9471), (10102, 10131), (11517, 11517),
  (12295, 12295), (12321, 12329), (12344, 12346), (12690, 12693), (12832, 12841), (12872, 12879),
  (12881, 12895), (12928, 12937), (12977, 12991), (42528, 42537), (42726, 42735), (43056, 43061),
  (43216, 43225), (43264, 43273), (43472, 43481), (43504, 43513), (43600, 43609), (44016, 44025),
  (65296, 65305), (65799, 65843), (65856, 65912), (65930, 65931), (66273, 66299), (66336, 66339),
  (66369, 66369), (66378, 66378), (66513, 66517), (66720, 66729), (67672, 67679), (67705, 67711),
  (67751, 67759), (67835, 67839), (67862, 67867), (68028, 68029), (68032, 68047), (68050, 68095),
  (68160, 68168), (68221, 68222), (68253, 68255), (68331, 68335), (68440, 68447), (68472, 68479),
  (68521, 68527), (68858, 68863), (68912, 68921), (68928, 68937), (69216, 69246), (69405, 69414),
  (69457, 69460), (69573, 69579), (69714, 69743), (69872, 69881), (69942, 69951), (70096, 70105),
  (70113, 70132), (70384, 70393), (70736, 70745), (70864, 70873), (71248, 71257), (71360, 71369),
  (71376, 71395), (71472, 71483), (71904, 71922), (72016, 72025), (72688, 72697), (72784, 72812),
  (73040, 73049), (73120, 73129), (73184, 73193), (73552, 73561), (73664, 73684), (74752, 74862),
  (90416, 90425), (92768, 92777), (92864, 92873), (93008, 93017), (93019, 93025), (93552, 93561),
  (93824, 93846), (94196, 94198), (118000, 118009), (119488, 119507), (119520, 119539),
  (119648, 119672), (120782, 120831), (123200, 123209), (123632, 123641), (124144, 124153),
  (124401, 124410), (125127, 125135), (125264, 125273), (126065, 126123), (126125, 126127),
  (126129, 126132), (126209, 126253), (126255, 126269), (127232, 127244), (130032, 130041)]

/-- Whether the character is a numeral of any script. -/
def isNumeric (c : Char) : Bool :=
  inRanges numericRanges c.toNat

/-! ## Ranges as binary digits -/

/-- The number whose binary digits tell which code points lie in the ranges. -/
def rangeBits (ranges : List (Nat × Nat)) : Nat :=
  ranges.foldr (fun r bits => bits ||| (2 ^ (r.2 + 1 - r.1) - 1) <<< r.1) 0

lemma testBit_rangeBits (ranges : List (Nat × Nat)) (n : Nat) :
    (rangeBits ranges).testBit n = inRanges ranges n := by
  induction ranges with
  | nil => simp [rangeBits, inRanges]
  | cons r ranges ih =>
    have hcons : rangeBits (r :: ranges) =
        rangeBits ranges ||| (2 ^ (r.2 + 1 - r.1) - 1) <<< r.1 := rfl
    have hrange : (decide (n ≥ r.1) && decide (n - r.1 < r.2 + 1 - r.1)) =
        (decide (r.1 ≤ n) && decide (n ≤ r.2)) := by
      rw [← Bool.decide_and, ← Bool.decide_and, decide_eq_decide]
      omega
    rw [hcons, Nat.testBit_or, ih, Nat.testBit_shiftLeft, Nat.testBit_two_pow_sub_one, hrange,
      Bool.or_comm]
    rfl

/-! ## Entries of a case mapping -/

/-- The code points that a run maps. -/
def CaseRun.points (r : CaseRun) : List Nat :=
  (List.range ((r.last - r.first) / r.step + 1)).map (r.first + r.step * ·)

lemma CaseRun.mem_points {r : CaseRun} {n : Nat} (h : r.holds n = true) : n ∈ r.points := by
  simp only [holds, Bool.and_eq_true, decide_eq_true_eq, beq_iff_eq] at h
  obtain ⟨⟨hfirst, hlast⟩, hstep⟩ := h
  refine List.mem_map.2 ⟨(n - r.first) / r.step, ?_, ?_⟩
  · have hle : (n - r.first) / r.step ≤ (r.last - r.first) / r.step :=
      Nat.div_le_div_right (by omega)
    exact List.mem_range.2 (by omega)
  · rw [Nat.mul_div_cancel' (Nat.dvd_of_mod_eq_zero hstep)]
    omega

/-- The code points that a case mapping changes, with their images. -/
def caseEntries (expansions : List (Nat × List Nat)) (runs : List CaseRun) :
    List (Nat × List Nat) :=
  expansions ++ runs.flatMap fun r => r.points.map fun n : Nat => (n, [(n + r.shift).toNat])

/-- **What a case mapping does to a character is said by one entry of its table**, if it does
anything. -/
theorem caseImage_cases (expansions : List (Nat × List Nat)) (runs : List CaseRun) (c : Char) :
    caseImage expansions runs c = [c] ∨
      ∃ e ∈ caseEntries expansions runs, e.1 = c.toNat ∧
        caseImage expansions runs c = e.2.map Char.ofNat := by
  unfold caseImage
  split
  · rename_i image hlookup
    obtain ⟨before, after, hsplit, -⟩ := List.lookup_eq_some_iff.1 hlookup
    exact Or.inr ⟨(c.toNat, image), List.mem_append_left _ (by simp [hsplit]), rfl, rfl⟩
  · split
    · rename_i run hfind
      have hholds : run.holds c.toNat = true := by simpa using List.find?_some hfind
      have hpoint := CaseRun.mem_points hholds
      refine Or.inr ⟨(c.toNat, [(c.toNat + run.shift).toNat]), List.mem_append_right _ ?_, rfl,
        rfl⟩
      exact List.mem_flatMap.2
        ⟨run, List.mem_of_find?_eq_some hfind, List.mem_map.2 ⟨c.toNat, hpoint, rfl⟩⟩
    · exact Or.inl rfl

/-! ## Characters of the same kind -/

/-- The two characters are both letters or digits or neither is, and likewise for numerals and for
the digits `0` to `9`. -/
structure SameKind (c x : Char) : Prop where
  alphanumeric : isAlphanumeric x = isAlphanumeric c
  numeric : isNumeric x = isNumeric c
  digit : Module.isDigit x = Module.isDigit c

/-- An entry that takes a letter to letters: the code point and the first one of its image, which
is another one, are both letters or both Roman numerals. -/
def LetterEntry (e : Nat × List Nat) : Prop :=
  57 < e.1 ∧ inRanges alphanumericRanges e.1 = true ∧
    57 < e.2.headD 0 ∧ inRanges alphanumericRanges (e.2.headD 0) = true ∧
    inRanges numericRanges (e.2.headD 0) = inRanges numericRanges e.1 ∧ e.2.headD 0 ≠ e.1

/-- Both tables take letters to letters. -/
lemma letterEntry_of_mem : ∀ e ∈ caseEntries upperExpansions upperRuns ++
    caseEntries lowerExpansions lowerRuns, LetterEntry e := by
  simp only [LetterEntry, ← testBit_rangeBits]
  decide +kernel

lemma letterEntry_upper {e : Nat × List Nat} (he : e ∈ caseEntries upperExpansions upperRuns) :
    LetterEntry e :=
  letterEntry_of_mem e (List.mem_append_left _ he)

lemma letterEntry_lower {e : Nat × List Nat} (he : e ∈ caseEntries lowerExpansions lowerRuns) :
    LetterEntry e :=
  letterEntry_of_mem e (List.mem_append_right _ he)

/-- A number that is not the code point of a character gives the null character. -/
lemma toNat_ofNat_cases (n : Nat) : (Char.ofNat n).toNat = n ∨ (Char.ofNat n).toNat = 0 := by
  by_cases hvalid : n.isValidChar
  · rw [Char.ofNat, dif_pos hvalid]
    exact Or.inl rfl
  · rw [Char.ofNat, dif_neg hvalid]
    exact Or.inr rfl

lemma toNat_ofNat_of_alphanumeric {n : Nat} (h : inRanges alphanumericRanges n = true) :
    (Char.ofNat n).toNat = n := by
  have hvalid : ∀ r ∈ alphanumericRanges, r.2 < 0xD800 ∨ 0xDFFF < r.1 ∧ r.2 < 0x110000 := by
    decide +kernel
  obtain ⟨r, hr, hn⟩ := List.any_eq_true.1 h
  simp only [Bool.and_eq_true, decide_eq_true_eq] at hn
  have hrange := hvalid r hr
  have hchar : n.isValidChar := by
    rcases hrange with hlow | ⟨hfirst, hlast⟩
    · exact Or.inl (by omega)
    · exact Or.inr ⟨by omega, by omega⟩
  rw [Char.ofNat, dif_pos hchar]
  rfl

lemma isDigit_eq_false {c : Char} (h : 57 < c.toNat) : Module.isDigit c = false := by
  have hlt : '9' < c := by
    rw [Char.lt_def, UInt32.lt_iff_toNat_lt]
    exact h
  simp [Module.isDigit, hlt]

lemma LetterEntry.eq_cons {e : Nat × List Nat} (h : LetterEntry e) :
    e.2 = e.2.headD 0 :: e.2.tail := by
  obtain ⟨-, -, hpos, -⟩ := h
  cases hns : e.2 with
  | nil => simp [hns] at hpos
  | cons n ns => rfl

/-- The code point and the first one of its image are characters of the same kind. -/
lemma LetterEntry.sameKind {e : Nat × List Nat} {c : Char} (h : LetterEntry e)
    (hc : e.1 = c.toNat) : SameKind c (Char.ofNat (e.2.headD 0)) := by
  obtain ⟨hfirst, hsource, himage, hletter, hnumeric, -⟩ := h
  have hnat := toNat_ofNat_of_alphanumeric hletter
  rw [hc] at hfirst hsource hnumeric
  refine ⟨?_, ?_, ?_⟩
  · rw [isAlphanumeric, isAlphanumeric, hnat, hletter, hsource]
  · rw [isNumeric, isNumeric, hnat, hnumeric]
  · rw [isDigit_eq_false hfirst, isDigit_eq_false (by rwa [hnat])]

lemma LetterEntry.ofNat_ne {e : Nat × List Nat} {c : Char} (h : LetterEntry e)
    (hc : e.1 = c.toNat) : Char.ofNat (e.2.headD 0) ≠ c := by
  obtain ⟨-, -, -, hletter, -, hne⟩ := h
  rintro rfl
  rw [toNat_ofNat_of_alphanumeric hletter] at hc
  exact hne hc.symm

/-- What the image of a character under a case mapping is like: the character itself, unless it is a
letter; and then the image begins with another character of the same kind. -/
def CaseForm (c : Char) (image : List Char) : Prop :=
  image = [c] ∨ isAlphanumeric c = true ∧ ∃ x xs, image = x :: xs ∧ SameKind c x ∧ x ≠ c

lemma CaseForm.ne_nil {c : Char} {image : List Char} (h : CaseForm c image) : image ≠ [] := by
  rcases h with rfl | ⟨-, x, xs, rfl, -⟩
  · simp
  · simp

lemma caseForm_of_letterEntry {expansions : List (Nat × List Nat)} {runs : List CaseRun}
    (h : ∀ e ∈ caseEntries expansions runs, LetterEntry e) (c : Char) :
    CaseForm c (caseImage expansions runs c) := by
  rcases caseImage_cases expansions runs c with hself | ⟨e, he, hc, himage⟩
  · exact Or.inl hself
  · have hentry := h e he
    have halphanumeric : isAlphanumeric c = true := by rw [isAlphanumeric, ← hc, hentry.2.1]
    refine Or.inr ⟨halphanumeric, Char.ofNat (e.2.headD 0), e.2.tail.map Char.ofNat, ?_,
      hentry.sameKind hc, hentry.ofNat_ne hc⟩
    rw [himage, hentry.eq_cons]
    rfl

lemma caseForm_upper (c : Char) : CaseForm c (upper c) :=
  caseForm_of_letterEntry (fun _ => letterEntry_upper) c

lemma caseForm_lower (c : Char) : CaseForm c (lower c) :=
  caseForm_of_letterEntry (fun _ => letterEntry_lower) c

/-! ## Letters without case -/

/-- The code points that have a lower-case form of their own. -/
def lowerSources : List (Nat × Nat) :=
  (caseEntries lowerExpansions lowerRuns).map fun e => (e.1, e.1)

/-- A few letters have both an upper-case and a lower-case form; these differ. -/
lemma head?_lower_ne :
    ∀ e ∈ caseEntries upperExpansions upperRuns, inRanges lowerSources e.1 = true →
      (lower (Char.ofNat e.1)).head? ≠ some (Char.ofNat (e.2.headD 0)) := by
  simp only [← testBit_rangeBits]
  decide +kernel

/-- **A character whose two forms begin alike has no case.** -/
theorem caseless_of_head?_eq {c : Char} (h : (upper c).head? = (lower c).head?) :
    upper c = [c] ∧ lower c = [c] := by
  rcases caseImage_cases upperExpansions upperRuns c with hupper | ⟨e, he, hc, hupper⟩
  · rcases caseForm_lower c with hlower | ⟨-, y, ys, hlower, -, hy⟩
    · exact ⟨hupper, hlower⟩
    · rw [upper, hupper, hlower] at h
      exact absurd (Option.some.inj h).symm hy
  -- With an upper-case form the heads would differ, whether there is a lower-case form or not.
  · have hentry := letterEntry_upper he
    have hhead : (upper c).head? = some (Char.ofNat (e.2.headD 0)) := by
      rw [upper, hupper, hentry.eq_cons]
      rfl
    rcases caseImage_cases lowerExpansions lowerRuns c with hlower | ⟨e', he', hc', -⟩
    · rw [hhead, lower, hlower] at h
      exact absurd (Option.some.inj h) (hentry.ofNat_ne hc)
    · have hsource : inRanges lowerSources e.1 = true :=
        List.any_eq_true.2 ⟨(e'.1, e'.1), List.mem_map_of_mem he', by simp [hc, hc']⟩
      have hne := head?_lower_ne e he hsource
      rw [hc, Char.ofNat_toNat, ← h, hhead] at hne
      exact absurd rfl hne

end NetDiagram.Text
