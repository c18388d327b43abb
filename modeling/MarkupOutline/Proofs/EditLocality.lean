import MarkupOutline.Proofs.Continuation
import MarkupOutline.Proofs.FinishedTrees
import MarkupOutline.Proofs.Pruned

/-!
# Edits further down

What stands on the first lines of a text and has ended there is read in the same way whatever
follows on the lines behind them: the elements that end there with all that is inside them, and the
first mismatch of a strict reading (`read_edit_locality`).
-/

namespace MarkupOutline.Markup

open Forest

/-! ## The first mismatch -/

/-- The mismatch at which a reading has failed, if it has. -/
def Reading.mismatch? (r : Reading) : Option Mismatch :=
  match r.outcome with
  | .error (.mismatch m) => some m
  | _ => none

/-- The first mismatch that tokens make. -/
def firstMismatch? (a : Assembly) : List Token → Option Mismatch
  | [] => none
  | token :: rest =>
    match a.mismatch? token with
    | some m => some m
    | none => firstMismatch? (a.step token) rest

/-- A strict assembly fails at the first mismatch. -/
theorem mismatch?_assemble_true (lines : Nat) (stop : Position) (a : Assembly)
    (tokens : List Token) :
    (assemble true lines stop a tokens).mismatch? = firstMismatch? a tokens := by
  induction tokens generalizing a with
  | nil =>
    rw [assemble, firstMismatch?]
    cases a.forest stop with
    | ok forest => rfl
    | error flaw => rfl
  | cons token rest ih =>
    rw [assemble_true_cons, firstMismatch?]
    cases a.mismatch? token with
    | some first => rfl
    | none => exact ih (a.step token)

theorem mismatch?_read_true (text : String) :
    (read true text).mismatch? = firstMismatch? .empty (tokensOf text) := by
  rw [read_eq]
  exact mismatch?_assemble_true _ _ _ _

theorem firstMismatch?_append (a : Assembly) (xs ys : List Token) :
    firstMismatch? a (xs ++ ys) =
      (firstMismatch? a xs).or (firstMismatch? (xs.foldl Assembly.step a) ys) := by
  induction xs generalizing a with
  | nil => rfl
  | cons x xs ih =>
    rw [List.cons_append, firstMismatch?, firstMismatch?]
    cases a.mismatch? x with
    | some m => rfl
    | none => exact ih (a.step x)

/-- A mismatch is on the line on which its end tag ends. -/
theorem exists_of_mismatch? {a : Assembly} {token : Token} {m : Mismatch}
    (h : a.mismatch? token = some m) : ∃ p, token.stop? = some p ∧ m.line = p.line := by
  cases token with
  | endTag name p =>
    obtain ⟨o, _, ho⟩ := Option.bind_eq_some_iff.1 h
    refine ⟨p, rfl, ?_⟩
    split at ho
    · simp at ho
    · rw [← Option.some.inj ho]
  | startTag tag => simp [Assembly.mismatch?] at h
  | aside ended => simp [Assembly.mismatch?] at h
  | stray => simp [Assembly.mismatch?] at h

theorem exists_of_firstMismatch? {a : Assembly} {tokens : List Token} {m : Mismatch}
    (h : firstMismatch? a tokens = some m) :
    ∃ token ∈ tokens, ∃ p, token.stop? = some p ∧ m.line = p.line := by
  induction tokens generalizing a with
  | nil => simp [firstMismatch?] at h
  | cons token rest ih =>
    rw [firstMismatch?] at h
    cases hm : a.mismatch? token with
    | some first =>
      rw [hm] at h
      exact ⟨token, List.mem_cons_self, exists_of_mismatch? (hm.trans h)⟩
    | none =>
      rw [hm] at h
      obtain ⟨token', hmem, hstop⟩ := ih h
      exact ⟨token', List.mem_cons_of_mem _ hmem, hstop⟩

/-! ## What follows a line end -/

variable (before after : String)

/-- Behind a line end a text goes on. -/
theorem ofText_append_line : Cursor.ofText (before ++ "\n" ++ after).toList =
    (Cursor.ofText before.toList).continued (Text.withLineFeeds after.toList) := by
  have hchars : (before ++ "\n" ++ after).toList = before.toList ++ '\n' :: after.toList := by
    simp
  rw [hchars, Cursor.ofText_append_feed]

/-- The last of the first lines. -/
theorem line_endOf : (endOf before).line = Text.lineCount before.toList - 1 := by
  rw [endOf, Cursor.position_atEnd_ofText, Text.lastPlace, Text.length_lines]

theorem lineCount_le_line_endOf :
    (Text.lineCount before.toList : Int) ≤ (endOf (before ++ "\n" ++ after)).line := by
  have hleads := Cursor.Leads.atEnd
    ((Cursor.ofText before.toList).continued (Text.withLineFeeds after.toList))
  have hlt := Token.line_lt_of_leads _ hleads (Nat.zero_le _)
  have hline := line_endOf before
  rw [endOf] at hline ⊢
  rw [ofText_append_line]
  omega

/-- The tokens of the first lines are those that end there, and others that end behind them. -/
theorem exists_tokensOf_append_line : ∃ later,
    tokensOf (before ++ "\n" ++ after) = (tokensOf before).takeWhile Token.isEnded ++ later ∧
      ∀ token ∈ later, ∀ p, token.stop? = some p →
        (Text.lineCount before.toList : Int) ≤ p.line := by
  obtain ⟨later, htokens, hlater⟩ := Token.readAll_continued (Cursor.ofText before.toList)
    (Text.withLineFeeds after.toList)
  refine ⟨later, ?_, fun token hmem p hstop => ?_⟩
  · rw [tokensOf, ofText_append_line]
    exact htokens
  · have hlt := hlater token hmem p hstop
    have hline := line_endOf before
    rw [endOf] at hline
    omega

/-! ## What stays -/

/-- The trees of a forest that end on one of the lines in front of `line`, with their depths, in
depth-first pre-order. -/
def endingBefore (line : Int) (forest : Forest Element) : List (Nat × Tree Element) :=
  (walk forest).filter fun (_, t) => t.value.span.stop.line < line

/-- The mismatch at which a reading has failed, if it is on one of the lines in front of `line`. -/
def Reading.mismatchBefore? (line : Int) (r : Reading) : Option Mismatch :=
  r.mismatch?.filter fun m => m.line < line

/-- The trees that end on the first lines are finished by the tokens that end there. -/
theorem map_endingBefore {forest : Forest Element}
    (h : map sketchOf forest = prune (fullTreeOf (before ++ "\n" ++ after))) :
    (endingBefore (Text.lineCount before.toList) forest).map
        (fun (depth, t) => (depth, (⟨sketchOf t.value, map sketchOf t.children⟩ : Tree Sketch))) =
      (visible (fullNest .empty ((tokensOf before).takeWhile Token.isEnded))).finished.filter
        (endsBefore (Text.lineCount before.toList)) := by
  obtain ⟨later, htokens, hlater⟩ := exists_tokensOf_append_line before after
  have hstop := lineCount_le_line_endOf before after
  rw [← filter_walk_prune_fullTree hlater hstop, ← htokens]
  rw [fullTreeOf] at h
  rw [← h, walk, walkFrom_map, List.filter_map]
  rfl

/-- The mismatch of a strict reading on the first lines is made by the tokens that end there. -/
theorem mismatchBefore?_read_true :
    (read true (before ++ "\n" ++ after)).mismatchBefore? (Text.lineCount before.toList) =
      (firstMismatch? .empty ((tokensOf before).takeWhile Token.isEnded)).filter
        fun m => m.line < (Text.lineCount before.toList : Int) := by
  obtain ⟨later, htokens, hlater⟩ := exists_tokensOf_append_line before after
  rw [Reading.mismatchBefore?, mismatch?_read_true, htokens, firstMismatch?_append]
  cases firstMismatch? .empty ((tokensOf before).takeWhile Token.isEnded) with
  | some m => rfl
  | none =>
    rw [Option.none_or, Option.filter_none, Option.filter_eq_none_iff]
    intro m hlate hline
    obtain ⟨token, hmem, p, hstop, hp⟩ := exists_of_firstMismatch? hlate
    have hle := hlater token hmem p hstop
    rw [decide_eq_true_iff] at hline
    omega

/-- Two texts that begin with the same lines have the same elements among those that end on one of
these lines, with the same bounds, at the same depth and with the same elements inside them, in the
same order. And a strict reading fails at a mismatch on one of these lines for both texts, and then
at the same one, or for neither. -/
theorem read_edit_locality (before after after' : String) :
    (∃ forest forest', (read false (before ++ "\n" ++ after)).outcome = .ok forest ∧
      (read false (before ++ "\n" ++ after')).outcome = .ok forest' ∧
      endingBefore (Text.lineCount before.toList) forest =
        endingBefore (Text.lineCount before.toList) forest') ∧
    (read true (before ++ "\n" ++ after)).mismatchBefore? (Text.lineCount before.toList) =
      (read true (before ++ "\n" ++ after')).mismatchBefore? (Text.lineCount before.toList) := by
  constructor
  · obtain ⟨forest, hforest⟩ := exists_map_sketchOf_eq_prune (before ++ "\n" ++ after)
    obtain ⟨forest', hforest'⟩ := exists_map_sketchOf_eq_prune (before ++ "\n" ++ after')
    refine ⟨forest, forest', outcome_read_false hforest, outcome_read_false hforest', ?_⟩
    have hsame := (map_endingBefore before after hforest).trans
      (map_endingBefore before after' hforest').symm
    -- sketches and their trees tell all of the elements
    refine (List.map_inj_right ?_).1 hsame
    rintro ⟨depth, ⟨e, below⟩⟩ ⟨depth', ⟨e', below'⟩⟩ hsketch
    simp only [Prod.mk.injEq, Tree.mk.injEq] at hsketch ⊢
    obtain ⟨hdepth, hvalue, hbelow⟩ := hsketch
    exact ⟨hdepth, sketchOf_injective hvalue, map_injective (fun _ _ => sketchOf_injective) hbelow⟩
  · rw [mismatchBefore?_read_true before after, mismatchBefore?_read_true before after']

end MarkupOutline.Markup
