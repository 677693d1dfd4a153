/-!
# What is left to visit

The searches of this library end because each of them marks members of a fixed list and never
unmarks one.  `remaining` counts the members without a mark; it does not grow when marks are
added, and it falls when a member is marked for the first time.
-/

namespace NetDiagram.Flow

/-- The number of entries of `all` that are not in `seen`. -/
def remaining {α : Type} [DecidableEq α] (all seen : List α) : Nat :=
  all.countP fun a => !seen.contains a

variable {α : Type} [DecidableEq α]

theorem remaining_le {all seen seen' : List α} (h : ∀ a ∈ seen, a ∈ seen') :
    remaining all seen' ≤ remaining all seen := by
  refine List.countP_mono_left fun a _ ha => ?_
  simp only [Bool.not_eq_true', List.contains_eq_mem, decide_eq_false_iff_not] at ha ⊢
  exact fun hs => ha (h a hs)

theorem remaining_lt {all seen seen' : List α} {a : α} (h : ∀ b ∈ seen, b ∈ seen')
    (hall : a ∈ all) (hnew : a ∉ seen) (hin : a ∈ seen') :
    remaining all seen' < remaining all seen := by
  induction all with
  | nil => simp at hall
  | cons b bs ih =>
    have hle : remaining bs seen' ≤ remaining bs seen := remaining_le h
    simp only [remaining] at hle ih ⊢
    rw [List.countP_cons, List.countP_cons]
    rcases List.mem_cons.1 hall with rfl | hmem
    · have hl : (!seen'.contains a) = false := by simp [hin]
      have hr : (!seen.contains a) = true := by simp [hnew]
      simp only [hl, hr, if_true, Bool.false_eq_true, if_false]
      omega
    · have hlt := ih hmem
      have himp : (!seen'.contains b) = true → (!seen.contains b) = true := by
        simp only [Bool.not_eq_true', List.contains_eq_mem, decide_eq_false_iff_not]
        exact fun hb hs => hb (h b hs)
      by_cases hb : (!seen'.contains b) = true
      · simp only [hb, himp hb, if_true]
        omega
      · simp only [hb, Bool.false_eq_true, if_false]
        omega

end NetDiagram.Flow
