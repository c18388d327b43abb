import MarkupOutline.Proofs.SourceTags

/-!
# Lines put together

A tag on several lines is put together from them with blanks in between, the lines behind the first
trimmed. With blanks collapsed this is the text as it stands, apart from blanks at the end of the
last line (`exists_collapse_intercalate_trim`). So the tag ends in the same mark, and the attributes
behind its name are the same (`exists_concat_of_collapse_eq`).
-/

namespace MarkupOutline.Text

/-! ## Runs of blanks -/

/-- A run of blanks leaves one space. -/
theorem collapse_run_append {run : List Char} (hne : run ≠ []) (hblank : ∀ c ∈ run, isBlank c)
    (behind : List Char) : collapse (run ++ behind) = collapse (' ' :: behind) := by
  induction run with
  | nil => exact absurd rfl hne
  | cons c run ih =>
    rw [List.forall_mem_cons] at hblank
    rw [List.cons_append, collapse_cons_of_isBlank hblank.1]
    by_cases hlast : run = []
    · rw [hlast, collapse_cons_of_isBlank rfl]
      rfl
    · rw [ih hlast hblank.2, if_pos (head?_collapse_cons rfl behind)]

theorem collapse_append_congr (front : List Char) {cs ds : List Char}
    (h : collapse cs = collapse ds) : collapse (front ++ cs) = collapse (front ++ ds) := by
  induction front with
  | nil => exact h
  | cons c front ih =>
    rw [List.cons_append, List.cons_append]
    by_cases hc : isBlank c
    · rw [collapse_cons_of_isBlank hc, collapse_cons_of_isBlank hc, ih]
    · rw [collapse_cons_of_not_isBlank hc, collapse_cons_of_not_isBlank hc, ih]

/-- A line end and the blanks behind it leave one space. -/
theorem collapse_feed_append {before : List Char} (h : ∀ c ∈ before, isBlank c)
    (behind : List Char) : collapse ('\n' :: (before ++ behind)) = collapse (' ' :: behind) :=
  collapse_run_append (List.cons_ne_nil '\n' before) (List.forall_mem_cons.2 ⟨rfl, h⟩) behind

/-- Blanks in front of a space leave nothing more. -/
theorem collapse_append_space {after : List Char} (h : ∀ c ∈ after, isBlank c)
    (behind : List Char) : collapse (after ++ ' ' :: behind) = collapse (' ' :: behind) := by
  have hrun : ∀ c ∈ after ++ [' '], isBlank c := by
    intro c hc
    rcases List.mem_append.1 hc with hc | hc
    · exact h c hc
    · rw [List.mem_singleton.1 hc]
      rfl
  rw [← collapse_run_append (by simp) hrun, List.append_assoc, List.singleton_append]

/-! ## Trimmed lines -/

/-- Lines that are trimmed and put together with blanks in between show what they show as they stand
in the text, apart from blanks behind the last one. -/
theorem exists_collapse_intercalate_trim (first : List Char) (others : List (List Char)) :
    ∃ trail, (∀ c ∈ trail, isBlank c) ∧
      collapse ([' '].intercalate (first :: others.map trim) ++ trail) =
        collapse (['\n'].intercalate (first :: others)) := by
  induction others generalizing first with
  | nil => exact ⟨[], List.forall_mem_nil _, by rw [List.append_nil]; rfl⟩
  | cons line others ih =>
    obtain ⟨before, after, hline, hbefore, hafter⟩ := exists_append_trimBy isBlank line
    rw [List.map_cons, List.intercalate_cons_cons, List.intercalate_cons_cons]
    simp only [List.append_assoc, List.cons_append, List.nil_append]
    rw [← trim] at hline
    cases others with
    | nil =>
      refine ⟨after, hafter, collapse_append_congr first ?_⟩
      rw [List.map_nil, List.intercalate_singleton, List.intercalate_singleton]
      conv_rhs => rw [hline]
      rw [collapse_feed_append hbefore]
    | cons next others =>
      obtain ⟨trail, htrail, hjoined⟩ := ih line
      refine ⟨trail, htrail, collapse_append_congr first ?_⟩
      rw [List.map_cons, List.intercalate_cons_cons, List.append_assoc, List.append_assoc,
        List.singleton_append] at hjoined
      rw [List.map_cons, List.intercalate_cons_cons, List.append_assoc, List.append_assoc,
        List.singleton_append]
      -- the blanks behind the line vanish in the one that stands in front of the next
      refine Eq.trans ?_ (collapse_append_congr ['\n'] hjoined)
      rw [List.singleton_append]
      conv_rhs => rw [hline, List.append_assoc, List.append_assoc]
      rw [collapse_feed_append hbefore]
      exact (collapse_append_congr (' ' :: trim line) (collapse_append_space hafter _)).symm

/-! ## The ends of a collapsed text -/

theorem getLast?_collapse (cs : List Char) :
    (collapse cs).getLast? = cs.getLast?.map fun c => if isBlank c then ' ' else c := by
  induction cs with
  | nil => rfl
  | cons c cs ih =>
    rw [List.getLast?_cons, Option.map_some]
    by_cases hc : isBlank c
    · rw [collapse_cons_of_isBlank hc]
      split
      · next hhead =>
        rw [ih]
        cases hlast : cs.getLast? with
        | none =>
          rw [List.getLast?_eq_none_iff.1 hlast] at hhead
          simp [collapse] at hhead
        | some y => rfl
      · rw [List.getLast?_cons, ih]
        cases cs.getLast? with
        | none => simp [hc]
        | some y => rfl
    · rw [collapse_cons_of_not_isBlank hc, List.getLast?_cons, ih]
      cases cs.getLast? with
      | none => simp [hc]
      | some y => rfl

/-- What is no blank ends a text with its blanks collapsed exactly if it ends the text. -/
theorem getLast?_collapse_eq_some_iff {y : Char} (hy : ¬ isBlank y) (cs : List Char) :
    (collapse cs).getLast? = some y ↔ cs.getLast? = some y := by
  rw [getLast?_collapse, Option.map_eq_some_iff]
  constructor
  · rintro ⟨c, hc, hcy⟩
    split at hcy
    · exact absurd (hcy ▸ rfl) hy
    · rw [hc, hcy]
  · intro h
    exact ⟨y, h, if_neg hy⟩

/-- With blanks collapsed a text still ends in a character that is no blank, and what stands in
front of it is the same. -/
theorem exists_concat_of_collapse_eq {y : Char} (hy : ¬ isBlank y) {cs ds : List Char}
    (h : collapse cs = collapse (ds ++ [y])) :
    ∃ front, cs = front ++ [y] ∧ collapse front = collapse ds := by
  have hlast : cs.getLast? = some y := by
    rw [← getLast?_collapse_eq_some_iff hy, h, getLast?_collapse_eq_some_iff hy,
      List.getLast?_concat]
  obtain ⟨front, rfl⟩ := List.getLast?_eq_some_iff.1 hlast
  rw [collapse_append_cons _ hy, collapse_append_cons _ hy] at h
  exact ⟨front, rfl, List.append_cancel_right h⟩

/-- Behind a text that ends in a character that is no blank no blanks follow. -/
theorem eq_nil_of_getLast?_append {y : Char} (hy : ¬ isBlank y) {cs trail : List Char}
    (htrail : ∀ c ∈ trail, isBlank c) (h : (cs ++ trail).getLast? = some y) : trail = [] := by
  rcases List.eq_nil_or_concat trail with rfl | ⟨front, c, rfl⟩
  · rfl
  · rw [List.concat_eq_append, ← List.append_assoc, List.getLast?_concat, Option.some.injEq] at h
    exact absurd (h ▸ htrail c (by simp)) hy

end MarkupOutline.Text

/-- Blanks at the end of a tag's text make no difference. -/
theorem MarkupOutline.Attributes.ofText_append_of_isBlank {trail : List Char}
    (h : ∀ c ∈ trail, Text.isBlank c) (cs : List Char) : ofText (cs ++ trail) = ofText cs := by
  induction trail generalizing cs with
  | nil => rw [List.append_nil]
  | cons c trail ih =>
    rw [List.forall_mem_cons] at h
    rw [← List.singleton_append, ← List.append_assoc, ih h.2, ofText_concat_of_isBlank h.1]
