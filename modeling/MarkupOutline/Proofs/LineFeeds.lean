import MarkupOutline.Position
import MarkupOutline.Text.Blank
import MarkupOutline.Text.LineEnd

/-!
# Returns in front of line feeds

Inside a text a carriage return goes exactly when a line feed follows. `dropReturns` does this to a
part of a text, so that `withLineFeeds` can be taken apart wherever no line feed begins
(`withLineFeeds_append_cons`). The returns that go make no difference to positions, to collapsed
blanks or to the marks that a text contains.
-/

namespace MarkupOutline

namespace Text

/-- The text without the carriage returns that a line feed follows. -/
def dropReturns : List Char → List Char
  | [] => []
  | c :: cs => if c = '\r' ∧ cs.head? = some '\n' then dropReturns cs else c :: dropReturns cs

/-! ## Taking a text apart -/

theorem dropReturns_cons_of_ne {c : Char} (hc : c ≠ '\r') (cs : List Char) :
    dropReturns (c :: cs) = c :: dropReturns cs :=
  if_neg fun h => hc h.1

theorem withLineFeeds_cons_of_ne {c : Char} (hc : c ≠ '\r') (cs : List Char) :
    withLineFeeds (c :: cs) = c :: withLineFeeds cs := by
  rw [withLineFeeds_cons, if_neg]
  simp [hc]

theorem dropReturns_append_of_not_mem {xs : List Char} (h : '\r' ∉ xs) (ys : List Char) :
    dropReturns (xs ++ ys) = xs ++ dropReturns ys := by
  induction xs with
  | nil => rfl
  | cons x xs ih =>
    rw [List.mem_cons, not_or] at h
    rw [List.cons_append, dropReturns_cons_of_ne (Ne.symm h.1), ih h.2, List.cons_append]

theorem withLineFeeds_append_of_not_mem {xs : List Char} (h : '\r' ∉ xs) (ys : List Char) :
    withLineFeeds (xs ++ ys) = xs ++ withLineFeeds ys := by
  induction xs with
  | nil => rfl
  | cons x xs ih =>
    rw [List.mem_cons, not_or] at h
    rw [List.cons_append, withLineFeeds_cons_of_ne (Ne.symm h.1), ih h.2, List.cons_append]

/-- Where no line feed begins, what goes in front of it does not depend on what follows. -/
theorem dropReturns_append_cons (xs : List Char) {y : Char} (hy : y ≠ '\n') (ys : List Char) :
    dropReturns (xs ++ y :: ys) = dropReturns xs ++ dropReturns (y :: ys) := by
  induction xs with
  | nil => rfl
  | cons x xs ih =>
    -- only the last character in front of `y` looks at `y`, and `y` is no line feed
    have hhead : (xs ++ y :: ys).head? = some '\n' ↔ xs.head? = some '\n' := by
      cases xs <;> simp [hy]
    rw [List.cons_append, dropReturns, dropReturns, ih]
    simp only [hhead]
    split
    · rfl
    · rw [List.cons_append]

/-- There a part of the text can be taken by itself. -/
theorem withLineFeeds_append_cons (xs : List Char) {y : Char} (hy : y ≠ '\n') (ys : List Char) :
    withLineFeeds (xs ++ y :: ys) = dropReturns xs ++ withLineFeeds (y :: ys) := by
  induction xs with
  | nil => rfl
  | cons x xs ih =>
    have hhead : endsLine (xs ++ y :: ys).head? = true ↔ xs.head? = some '\n' := by
      cases xs <;> simp [endsLine, hy]
    rw [List.cons_append, withLineFeeds_cons, dropReturns, ih]
    simp only [Bool.and_eq_true, decide_eq_true_eq, hhead]
    split
    · rfl
    · rw [List.cons_append]

theorem dropReturns_eq_self {cs : List Char} (h : '\n' ∉ cs) : dropReturns cs = cs := by
  induction cs with
  | nil => rfl
  | cons c cs ih =>
    rw [List.mem_cons, not_or] at h
    rw [dropReturns, if_neg, ih h.2]
    exact fun hreturn => h.2 (List.mem_of_mem_head? hreturn.2)

/-- A piece without line feeds changes nothing in front of it. -/
theorem dropReturns_append_of_no_feed (xs : List Char) {ys : List Char} (h : '\n' ∉ ys) :
    dropReturns (xs ++ ys) = dropReturns xs ++ ys := by
  cases ys with
  | nil => rw [List.append_nil, List.append_nil]
  | cons y ys =>
    have hy : y ≠ '\n' := fun heq => h (by rw [heq]; exact List.mem_cons_self)
    rw [dropReturns_append_cons xs hy, dropReturns_eq_self h]

theorem dropReturns_ne_nil {cs : List Char} (h : cs ≠ []) : dropReturns cs ≠ [] := by
  induction cs with
  | nil => exact h
  | cons c cs ih =>
    rw [dropReturns]
    split
    · next hreturn =>
      refine ih fun hnil => ?_
      rw [hnil] at hreturn
      exact absurd hreturn.2 (by simp)
    · exact List.cons_ne_nil _ _

/-- A piece whose last character is neither a return nor a line feed can be taken by itself. -/
theorem withLineFeeds_concat_append (xs : List Char) {y : Char} (hfeed : y ≠ '\n')
    (hreturn : y ≠ '\r') (ys : List Char) :
    withLineFeeds ((xs ++ [y]) ++ ys) = dropReturns (xs ++ [y]) ++ withLineFeeds ys := by
  rw [List.append_assoc, List.singleton_append, withLineFeeds_append_cons xs hfeed,
    withLineFeeds_cons_of_ne hreturn, dropReturns_append_cons xs hfeed,
    dropReturns_cons_of_ne hreturn, List.append_assoc]
  rfl

/-- The line ends of a text are the same whatever stands in front of it. -/
theorem exists_withLineFeeds_append (xs ys : List Char) :
    ∃ zs, withLineFeeds (xs ++ ys) = zs ++ withLineFeeds ys := by
  induction xs with
  | nil => exact ⟨[], rfl⟩
  | cons x xs ih =>
    obtain ⟨zs, hzs⟩ := ih
    rw [List.cons_append, withLineFeeds_cons, hzs]
    split
    · exact ⟨zs, rfl⟩
    · exact ⟨x :: zs, rfl⟩

/-! ## What the returns that go do not change -/

theorem mem_of_mem_dropReturns {c : Char} {cs : List Char} (h : c ∈ dropReturns cs) : c ∈ cs := by
  induction cs with
  | nil => exact h
  | cons x cs ih =>
    rw [dropReturns] at h
    split at h
    · exact List.mem_cons_of_mem x (ih h)
    · exact List.mem_cons.2 ((List.mem_cons.1 h).imp id ih)

theorem collapse_dropReturns (cs : List Char) : collapse (dropReturns cs) = collapse cs := by
  induction cs with
  | nil => rfl
  | cons c cs ih =>
    rw [dropReturns]
    split
    · next h =>
      -- the line feed behind the return leaves the space that the return would leave
      obtain ⟨rest, rfl⟩ := List.head?_eq_some_iff.1 h.2
      have hreturn : isBlank '\r' := rfl
      have hfeed : isBlank '\n' := rfl
      rw [ih, h.1, collapse_cons_of_isBlank hreturn, if_pos (head?_collapse_cons hfeed rest)]
    · by_cases hc : isBlank c
      · rw [collapse_cons_of_isBlank hc, collapse_cons_of_isBlank hc, ih]
      · rw [collapse_cons_of_not_isBlank hc, collapse_cons_of_not_isBlank hc, ih]

/-- A mark without line feeds begins a text if it does so once the returns are gone. -/
theorem prefix_of_prefix_dropReturns {mark cs : List Char} (hmark : '\n' ∉ mark)
    (h : mark <+: dropReturns cs) : mark <+: cs := by
  induction cs generalizing mark with
  | nil => exact h
  | cons c cs ih =>
    cases mark with
    | nil => exact List.nil_prefix
    | cons m mark =>
      rw [List.mem_cons, not_or] at hmark
      rw [dropReturns] at h
      split at h
      · next hreturn =>
        -- a mark cannot begin with the line feed that is left
        obtain ⟨rest, rfl⟩ := List.head?_eq_some_iff.1 hreturn.2
        rw [dropReturns_cons_of_ne (by decide), List.cons_prefix_cons] at h
        exact absurd h.1.symm hmark.1
      · rw [List.cons_prefix_cons] at h ⊢
        exact ⟨h.1, ih hmark.2 h.2⟩

/-- A mark without line feeds occurs in a text if it does so once the returns are gone. -/
theorem infix_of_infix_dropReturns {mark cs : List Char} (hmark : '\n' ∉ mark)
    (h : mark <:+: dropReturns cs) : mark <:+: cs := by
  induction cs with
  | nil => exact h
  | cons c cs ih =>
    rw [dropReturns] at h
    split at h
    · exact (ih h).trans (List.suffix_cons c cs).isInfix
    · next hstays =>
      -- the mark begins here, or it occurs behind the first character
      rcases List.infix_cons_iff.1 h with hbegins | hoccurs
      · refine (prefix_of_prefix_dropReturns hmark ?_).isInfix
        rwa [dropReturns, if_neg hstays]
      · exact (ih hoccurs).trans (List.suffix_cons c cs).isInfix

end Text

/-- A return in front of a line feed takes no place of its own. -/
theorem Position.afterAll_dropReturns (p : Position) (cs : List Char) :
    p.afterAll (Text.dropReturns cs) = p.afterAll cs := by
  induction cs generalizing p with
  | nil => rfl
  | cons c cs ih =>
    rw [Text.dropReturns]
    split
    · next h =>
      obtain ⟨rest, rfl⟩ := List.head?_eq_some_iff.1 h.2
      rw [ih, h.1]
      rfl
    · exact ih (p.after c)

end MarkupOutline
