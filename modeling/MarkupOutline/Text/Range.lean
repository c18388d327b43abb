/-!
# Tables of code point ranges

A table is a list of inclusive ranges in ascending order, so that a search stops at the first
range that starts beyond the code point sought.
-/

namespace MarkupOutline.Text

/-- Whether a code point lies in one of the ascending ranges. -/
def inRanges (n : Nat) : List (Nat × Nat) → Bool
  | [] => false
  | (first, last) :: rest => if n < first then false else n ≤ last || inRanges n rest

theorem exists_mem_of_inRanges {n : Nat} {ranges : List (Nat × Nat)} (h : inRanges n ranges) :
    ∃ r ∈ ranges, r.1 ≤ n ∧ n ≤ r.2 := by
  induction ranges with
  | nil => simp [inRanges] at h
  | cons r ranges ih =>
    obtain ⟨first, last⟩ := r
    simp only [inRanges] at h
    split at h
    · simp at h
    · next hfirst =>
      rcases Bool.or_eq_true _ _ ▸ h with h | h
      · exact ⟨(first, last), List.mem_cons_self, Nat.le_of_not_lt hfirst, of_decide_eq_true h⟩
      · obtain ⟨r, hr, hn⟩ := ih h
        exact ⟨r, List.mem_cons_of_mem _ hr, hn⟩

end MarkupOutline.Text
