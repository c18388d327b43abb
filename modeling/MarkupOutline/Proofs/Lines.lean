import MarkupOutline.Markup.Cursor
import MarkupOutline.Proofs.LineFeeds
import MarkupOutline.Text.Lines

/-!
# Lines

The lines of a text stand between its line feeds, each without one carriage return at its end. A
place in a text parts the line on which it is: `PartedAt` says what stands in front of it there and
what behind it. Reading a text from its start leads from one such place to the next
(`exists_partedAt_afterAll`).
-/

namespace MarkupOutline

namespace Text

/-! ## The lines of a text -/

/-- The pieces of a text are those that a split at its line feeds gives. -/
theorem pieces_eq_splitOn (cs : List Char) : pieces cs = cs.splitOn '\n' := by
  induction cs with
  | nil => rfl
  | cons c cs ih =>
    rw [pieces_cons, List.splitOn_cons_eq_if_modifyHead, ih]
    by_cases hc : c = '\n'
    · rw [if_pos hc, if_pos (by simp [hc])]
    · rw [if_neg hc, if_neg (by simp [hc])]

theorem lines_eq (cs : List Char) : lines cs = (cs.splitOn '\n').map withoutReturn := by
  rw [lines, pieces_eq_splitOn]

/-- The first line is empty exactly if a carriage return in front of it would belong to its end. -/
theorem eq_nil_iff_endsLine {cs line : List Char} {others : List (List Char)}
    (h : cs.splitOn '\n' = line :: others) : line = [] ↔ endsLine cs.head? := by
  cases cs with
  | nil =>
    rw [List.splitOn_nil, List.cons.injEq] at h
    simp [← h.1, endsLine]
  | cons c cs =>
    rw [List.splitOn_cons_eq_if_modifyHead] at h
    by_cases hc : c = '\n'
    · rw [if_pos (by simp [hc]), List.cons.injEq] at h
      simp [← h.1, endsLine, hc]
    · rw [if_neg (by simp [hc])] at h
      cases hrest : cs.splitOn '\n' with
      | nil => exact absurd hrest (List.splitOn_ne_nil _ _)
      | cons front behind =>
        rw [hrest, List.modifyHead_cons, List.cons.injEq] at h
        simp [← h.1, endsLine, hc]

/-- A character in front of a line stays, unless it is a return and the line is empty. -/
theorem withoutReturn_cons {c : Char} {line : List Char} (h : c = '\r' → line ≠ []) :
    withoutReturn (c :: line) = c :: withoutReturn line := by
  cases line with
  | nil =>
    have hc : c ≠ '\r' := fun hreturn => h hreturn rfl
    simp [withoutReturn, hc]
  | cons d line =>
    rw [withoutReturn, withoutReturn, List.getLast?_cons_cons, List.dropLast_cons_cons]
    split <;> rfl

/-- The returns that belong to line ends are those that the lines go without. -/
theorem splitOn_withLineFeeds (cs : List Char) : (withLineFeeds cs).splitOn '\n' = lines cs := by
  induction cs with
  | nil => rfl
  | cons c cs ih =>
    rw [withLineFeeds_cons, lines_eq, List.splitOn_cons_eq_if_modifyHead]
    by_cases hfeed : c = '\n'
    · rw [if_neg (by simp [hfeed]), if_pos (by simp [hfeed]),
        List.splitOn_cons_eq_if_modifyHead, if_pos (by simp [hfeed]), ih, lines_eq]
      rfl
    · rw [if_neg (show ¬ (c == '\n') = true by simpa using hfeed)]
      cases hlines : cs.splitOn '\n' with
      | nil => exact absurd hlines (List.splitOn_ne_nil _ _)
      | cons line others =>
        have hempty := eq_nil_iff_endsLine hlines
        rw [lines_eq, hlines, List.map_cons] at ih
        rw [List.modifyHead_cons, List.map_cons]
        split
        · next hreturn =>
          rw [Bool.and_eq_true, decide_eq_true_eq] at hreturn
          rw [ih, hempty.2 hreturn.2, hreturn.1]
          rfl
        · next hstays =>
          rw [Bool.and_eq_true, decide_eq_true_eq, not_and] at hstays
          rw [List.splitOn_cons_eq_if_modifyHead, if_neg (by simpa using hfeed), ih,
            List.modifyHead_cons,
            withoutReturn_cons fun hreturn hnil => hstays hreturn (hempty.1 hnil)]

theorem length_splitOn (cs : List Char) : (cs.splitOn '\n').length = cs.count '\n' + 1 := by
  induction cs with
  | nil => rfl
  | cons c cs ih =>
    rw [List.splitOn_cons_eq_if_modifyHead, List.count_cons]
    split
    · rw [List.length_cons, ih]
    · rw [List.length_modifyHead, ih]

theorem length_lines (cs : List Char) : (lines cs).length = lineCount cs := by
  rw [lines_eq, List.length_map, length_splitOn, lineCount]

/-! ## Places on a line -/

/-- The place `p` parts its line: `front` stands in front of it, `behind` behind it. -/
def PartedAt (lines : List (List Char)) (p : Position) (front behind : List Char) : Prop :=
  ∃ n : Nat, lines[n]? = some (front ++ behind) ∧ p = ⟨n, front.length⟩

/-- A place further to the right parts the same line. -/
theorem PartedAt.right {lines : List (List Char)} {p : Position} {front cs behind : List Char}
    (h : PartedAt lines p front (cs ++ behind)) :
    PartedAt lines (p.right cs.length) (front ++ cs) behind := by
  obtain ⟨n, hline, rfl⟩ := h
  refine ⟨n, by rw [hline, List.append_assoc], ?_⟩
  rw [Position.right, List.length_append, Int.natCast_add]

/-- Some text leads to a place on its last line, and the text behind it goes on with that line. -/
theorem exists_front (cs : List Char) :
    ∃ front : List Char,
      (∀ p : Position, p.afterAll cs = if cs.count '\n' = 0 then p.right front.length
        else ⟨p.line + cs.count '\n', front.length⟩) ∧
      ∀ rest, ((cs ++ rest).splitOn '\n')[cs.count '\n']? =
        some (front ++ rest.takeWhile (· ≠ '\n')) := by
  induction cs with
  | nil =>
    refine ⟨[], fun p => by simp [Position.afterAll, Position.right], fun rest => ?_⟩
    induction rest with
    | nil => rfl
    | cons c rest ih =>
      rw [List.nil_append, List.nil_append, List.count_nil] at ih ⊢
      rw [List.splitOn_cons_eq_if_modifyHead]
      by_cases hc : c = '\n'
      · simp [hc]
      · simp [hc, List.getElem?_modifyHead, ih]
  | cons c cs ih =>
    obtain ⟨front, hplace, hline⟩ := ih
    have hafter : ∀ p : Position, p.afterAll (c :: cs) = (p.after c).afterAll cs := fun _ => rfl
    by_cases hc : c = '\n'
    · -- a line feed ends the line, and what follows is on the lines behind
      subst hc
      refine ⟨front, fun p => ?_, fun rest => ?_⟩
      · rw [hafter, hplace, List.count_cons_self, if_neg (Nat.succ_ne_zero _)]
        by_cases hzero : cs.count '\n' = 0
        · simp [Position.after, Position.right, hzero]
        · rw [if_neg hzero, Position.mk.injEq]
          refine ⟨?_, rfl⟩
          show p.line + 1 + _ = _
          omega
      · rw [List.cons_append, List.splitOn_cons_eq_if_modifyHead, if_pos (by simp),
          List.count_cons_self, List.getElem?_cons_succ, hline]
    · have hcount : (c :: cs).count '\n' = cs.count '\n' := List.count_cons_of_ne hc
      have hstep : ∀ p : Position, p.after c = ⟨p.line, p.column + 1⟩ := fun p => if_neg hc
      have hsplit : ∀ rest, (c :: cs ++ rest).splitOn '\n' =
          ((cs ++ rest).splitOn '\n').modifyHead (List.cons c) := by
        intro rest
        rw [List.cons_append, List.splitOn_cons_eq_if_modifyHead, if_neg (by simpa using hc)]
      rw [hcount]
      by_cases hzero : cs.count '\n' = 0
      · refine ⟨c :: front, fun p => ?_, fun rest => ?_⟩
        · rw [hafter, hplace, hstep, if_pos hzero, if_pos hzero, Position.right, Position.right,
            Position.mk.injEq, List.length_cons]
          refine ⟨rfl, ?_⟩
          show p.column + 1 + _ = _
          omega
        · rw [hsplit, List.getElem?_modifyHead, hline, hzero]
          rfl
      · refine ⟨front, fun p => ?_, fun rest => ?_⟩
        · rw [hafter, hplace, hstep, if_neg hzero, if_neg hzero]
        · rw [hsplit, List.getElem?_modifyHead, hline, if_neg hzero]

/-- Reading a text from its start leads to a place on a line, which goes on with the text behind. -/
theorem exists_partedAt_afterAll (before rest : List Char) :
    ∃ front, PartedAt ((before ++ rest).splitOn '\n') (Position.origin.afterAll before) front
      (rest.takeWhile (· ≠ '\n')) := by
  obtain ⟨front, hplace, hline⟩ := exists_front before
  refine ⟨front, before.count '\n', hline rest, ?_⟩
  rw [hplace]
  split
  · next hzero => simp [hzero, Position.origin, Position.right]
  · simp [Position.origin]

/-- Reading a whole text leads behind its last line. -/
theorem afterAll_eq_lastPlace (cs : List Char) :
    Position.origin.afterAll cs = lastPlace (cs.splitOn '\n') := by
  obtain ⟨front, hplace, hline⟩ := exists_front cs
  have hlast := hline []
  have hlength := length_splitOn cs
  rw [List.append_nil, List.takeWhile_nil, List.append_nil] at hlast
  have hgetLast : (cs.splitOn '\n').getLastD [] = front := by
    rw [List.getLastD_eq_getLast?, List.getLast?_eq_getElem?, hlength, Nat.add_sub_cancel, hlast]
    rfl
  rw [lastPlace, hgetLast, hlength, hplace]
  split
  · next hzero => simp [hzero, Position.origin, Position.right]
  · simp [Position.origin]

end Text

/-- A text ends behind its last line. -/
theorem Markup.Cursor.position_atEnd_ofText (cs : List Char) :
    (ofText cs).atEnd.position = Text.lastPlace (Text.lines cs) := by
  rw [← Text.splitOn_withLineFeeds, ← Text.afterAll_eq_lastPlace]
  rfl

end MarkupOutline
