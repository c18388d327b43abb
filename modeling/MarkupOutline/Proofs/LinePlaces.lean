import MarkupOutline.Proofs.Lines
import MarkupOutline.Proofs.Travel

/-!
# Places on lines

A text of some lines can be read from any column of any of its lines on: `Cursor.onLine` stands
there. The next character is that of the line in this column, or the line feed behind the line
(`restAt_cases`), so every movement leads from one such place to another, and never beyond the end
of a line (`Leads.exists_onLine`).
-/

namespace MarkupOutline

namespace Text

/-- What is left of a text of the given lines from column `k` of line `n` on. -/
def restAt (ls : List (List Char)) (n k : Nat) : List Char :=
  ['\n'].intercalate ((ls.drop n).modifyHead (·.drop k))

/-- There is a line `n`, and column `k` is not beyond its end. -/
def Within (ls : List (List Char)) (n k : Nat) : Prop :=
  ∃ l, ls[n]? = some l ∧ k ≤ l.length

variable {ls : List (List Char)} {n k : Nat}

theorem Within.lt_length (h : Within ls n k) : n < ls.length := by
  obtain ⟨l, hline, _⟩ := h
  exact (List.getElem?_eq_some_iff.1 hline).1

theorem restAt_zero_zero (ls : List (List Char)) : restAt ls 0 0 = ['\n'].intercalate ls := by
  rw [restAt, List.drop_zero]
  cases ls with
  | nil => rfl
  | cons l others => rfl

/-- The next character is that in column `k`, or the line feed behind the line, or there is none. -/
theorem restAt_cases (ls : List (List Char)) (n k : Nat) :
    restAt ls n k = [] ∨
    (∃ l c, ls[n]? = some l ∧ l[k]? = some c ∧
      restAt ls n k = c :: restAt ls n (k + 1)) ∨
    n + 1 < ls.length ∧ restAt ls n k = '\n' :: restAt ls (n + 1) 0 := by
  by_cases hn : n < ls.length
  · have hdrop := List.drop_eq_getElem_cons hn
    by_cases hk : k < ls[n].length
    · refine .inr (.inl ⟨ls[n], ls[n][k], List.getElem?_eq_getElem hn,
        List.getElem?_eq_getElem hk, ?_⟩)
      rw [restAt, restAt, hdrop, List.modifyHead_cons, List.modifyHead_cons,
        List.drop_eq_getElem_cons hk]
      cases ls.drop (n + 1) with
      | nil => rfl
      | cons next below => rw [List.intercalate_cons_cons, List.intercalate_cons_cons]; rfl
    · -- the line has been read to its end, and a line feed follows unless it is the last
      have hend : ls[n].drop k = [] := List.drop_eq_nil_iff.2 (Nat.not_lt.1 hk)
      by_cases hnext : n + 1 < ls.length
      · refine .inr (.inr ⟨hnext, ?_⟩)
        rw [restAt, restAt, hdrop, List.modifyHead_cons, hend, List.drop_eq_getElem_cons hnext,
          List.intercalate_cons_cons]
        rfl
      · refine .inl ?_
        rw [restAt, hdrop, List.modifyHead_cons, hend,
          List.drop_eq_nil_iff.2 (Nat.not_lt.1 hnext), List.intercalate_singleton]
  · refine .inl ?_
    rw [restAt, List.drop_eq_nil_iff.2 (Nat.not_lt.1 hn)]
    rfl

/-- Some text leads from a place on a line to another, and what is left there is what follows it. -/
theorem exists_restAt_eq (hls : ∀ l ∈ ls, '\n' ∉ l) {xs more : List Char}
    (h : restAt ls n k = xs ++ more) :
    ∃ m j : Nat, Position.afterAll ⟨n, k⟩ xs = ⟨m, j⟩ ∧ restAt ls m j = more ∧
      (Within ls n k → Within ls m j) := by
  induction xs generalizing n k with
  | nil => exact ⟨n, k, rfl, h, id⟩
  | cons x xs ih =>
    have hstep : Position.afterAll ⟨n, k⟩ (x :: xs) =
        (Position.after ⟨n, k⟩ x).afterAll xs := rfl
    rcases restAt_cases ls n k with hnil | ⟨l, c, hline, hchar, hcons⟩ | ⟨hnext, hfeed⟩
    · rw [hnil] at h
      exact absurd h.symm (List.cons_ne_nil _ _)
    · rw [hcons, List.cons_append, List.cons.injEq] at h
      obtain ⟨rfl, hrest⟩ := h
      have hne : c ≠ '\n' := fun hfeed =>
        hls l (List.mem_of_getElem? hline) (hfeed ▸ List.mem_of_getElem? hchar)
      have hafter : Position.after ⟨n, k⟩ c = ⟨n, (k + 1 : Nat)⟩ := if_neg hne
      obtain ⟨m, j, hplace, hleft, hwithin⟩ := ih hrest
      refine ⟨m, j, by rw [hstep, hafter, hplace], hleft, fun _ => hwithin ⟨l, hline, ?_⟩⟩
      exact (List.getElem?_eq_some_iff.1 hchar).1
    · rw [hfeed, List.cons_append, List.cons.injEq] at h
      obtain ⟨rfl, hrest⟩ := h
      have hafter : Position.after ⟨n, k⟩ '\n' = ⟨(n + 1 : Nat), (0 : Nat)⟩ := if_pos rfl
      obtain ⟨m, j, hplace, hleft, hwithin⟩ := ih hrest
      refine ⟨m, j, by rw [hstep, hafter, hplace], hleft, fun _ => hwithin ⟨ls[n + 1], ?_, ?_⟩⟩
      · exact List.getElem?_eq_getElem hnext
      · exact Nat.zero_le _

/-- A character that is no line feed stands on a line, in the column that reading has come to. -/
theorem exists_getElem?_of_restAt_eq (hls : ∀ l ∈ ls, '\n' ∉ l) {xs more : List Char} {c : Char}
    (hc : c ≠ '\n') (h : restAt ls n k = xs ++ c :: more) :
    ∃ (m j : Nat) (l : List Char), ls[m]? = some l ∧ l[j]? = some c ∧
      Position.afterAll ⟨n, k⟩ (xs ++ [c]) = ⟨m, (j + 1 : Nat)⟩ ∧ restAt ls m (j + 1) = more := by
  obtain ⟨m, j, hplace, hleft, _⟩ := exists_restAt_eq hls h
  rcases restAt_cases ls m j with hnil | ⟨l, d, hline, hchar, hcons⟩ | ⟨_, hfeed⟩
  · rw [hnil] at hleft
    exact absurd hleft.symm (List.cons_ne_nil _ _)
  · rw [hcons, List.cons.injEq] at hleft
    obtain ⟨rfl, hmore⟩ := hleft
    refine ⟨m, j, l, hline, hchar, ?_, hmore⟩
    rw [Position.afterAll_append, hplace]
    exact if_neg hc
  · rw [hfeed, List.cons.injEq] at hleft
    exact absurd hleft.1.symm hc

/-- No line feed stands on a line of a text. -/
theorem feed_not_mem_of_mem_splitOn {cs l : List Char} (h : l ∈ cs.splitOn '\n') : '\n' ∉ l := by
  induction cs generalizing l with
  | nil =>
    rw [List.splitOn_nil, List.mem_singleton] at h
    simp [h]
  | cons c cs ih =>
    rw [List.splitOn_cons_eq_if_modifyHead] at h
    split at h
    · rcases List.mem_cons.1 h with rfl | h
      · simp
      · exact ih h
    · next hc =>
      cases hlines : cs.splitOn '\n' with
      | nil => exact absurd hlines (List.splitOn_ne_nil _ _)
      | cons first others =>
        rw [hlines] at h ih
        rcases List.mem_cons.1 h with rfl | h
        · have hfirst := ih List.mem_cons_self
          rw [List.mem_cons, not_or]
          exact ⟨fun heq => hc (by simp [← heq]), hfirst⟩
        · exact ih (List.mem_cons_of_mem _ h)

theorem feed_not_mem_of_mem_lines {cs l : List Char} (h : l ∈ lines cs) : '\n' ∉ l := by
  rw [← splitOn_withLineFeeds] at h
  exact feed_not_mem_of_mem_splitOn h

/-- Every text has a first line. -/
theorem lines_ne_nil (cs : List Char) : lines cs ≠ [] := by
  rw [← List.length_pos_iff, length_lines]
  exact Nat.succ_pos _

theorem within_zero_zero (cs : List Char) : Within (lines cs) 0 0 := by
  have hpos : 0 < (lines cs).length := List.length_pos_iff.2 (lines_ne_nil cs)
  exact ⟨(lines cs)[0], List.getElem?_eq_getElem hpos, Nat.zero_le _⟩

end Text

namespace Markup.Cursor

/-- The cursor at column `k` of line `n` of a text of the given lines. -/
def onLine (ls : List (List Char)) (n k : Nat) : Cursor :=
  ⟨⟨n, k⟩, Text.restAt ls n k⟩

/-- Reading a text begins in front of its first line. -/
theorem ofText_eq_onLine (cs : List Char) : ofText cs = onLine (Text.lines cs) 0 0 := by
  rw [onLine, Text.restAt_zero_zero, ← Text.splitOn_withLineFeeds, List.intercalate_splitOn]
  rfl

/-- A movement leads from a place on a line to another. -/
theorem Leads.exists_onLine {ls : List (List Char)} (hls : ∀ l ∈ ls, '\n' ∉ l) {n k : Nat}
    {cs : List Char} {d : Cursor} (h : (onLine ls n k).Leads cs d) (hwithin : Text.Within ls n k) :
    ∃ m j : Nat, d = onLine ls m j ∧ Text.Within ls m j := by
  obtain ⟨m, j, hplace, hrest, hkept⟩ := Text.exists_restAt_eq hls h.rest_eq
  obtain ⟨p, rest⟩ := d
  have hposition : p = ⟨m, j⟩ := h.position_eq.trans hplace
  refine ⟨m, j, ?_, hkept hwithin⟩
  rw [hposition, onLine, hrest]

end Markup.Cursor

end MarkupOutline
