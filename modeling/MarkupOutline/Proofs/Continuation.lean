import MarkupOutline.Proofs.Following
import MarkupOutline.Proofs.Lines

/-!
# Texts that go on

A text may go on behind a line end. What has ended by then is read as before: no mark and no name
goes beyond a line end, and the first end of an aside or of a tag stays the first. What has not
ended takes the line end with it. So the tokens in front of the first that does not end stay
(`readAll_continued`), and all others end on later lines.
-/

namespace MarkupOutline

namespace Text

/-- A line end parts a text. -/
theorem withLineFeeds_append_feed (xs ys : List Char) :
    withLineFeeds (xs ++ '\n' :: ys) = withLineFeeds xs ++ '\n' :: withLineFeeds ys := by
  induction xs with
  | nil => exact withLineFeeds_cons_of_ne (by decide) ys
  | cons x xs ih =>
    -- a return is followed by a line end here if it is by one or by nothing there
    have hhead : endsLine (xs ++ '\n' :: ys).head? = endsLine xs.head? := by
      cases xs with
      | nil => rfl
      | cons y xs => rfl
    rw [List.cons_append, withLineFeeds_cons, withLineFeeds_cons, hhead, ih]
    split
    · rfl
    · rfl

end Text

namespace Markup

/-! ## Movements -/

namespace Cursor

/-- The cursor on the same text when the text goes on, behind a line end, with `more`. -/
def continued (c : Cursor) (more : List Char) : Cursor :=
  ⟨c.position, c.rest ++ '\n' :: more⟩

variable {c d : Cursor} {more : List Char}

theorem ofText_append_feed (xs ys : List Char) :
    ofText (xs ++ '\n' :: ys) = (ofText xs).continued (Text.withLineFeeds ys) := by
  rw [ofText, Text.withLineFeeds_append_feed]
  rfl

theorem continued_eq_followed (c : Cursor) (more : List Char) :
    c.continued more = c.followed '\n' more := rfl

/-- The next mark stays the next. -/
theorem seekMarkup_continued (h : c.seekMarkup.rest ≠ []) :
    (c.continued more).seekMarkup = c.seekMarkup.continued more :=
  seekMarkup_followed h

/-- Without a mark all of the text is passed over, and its line end too. -/
theorem length_rest_seekMarkup_continued_le (h : c.seekMarkup.rest = []) :
    (c.continued more).seekMarkup.rest.length ≤ more.length := by
  have hrest : (c.continued more).seekMarkup.rest = more.dropWhile (· ≠ '<') := by
    show (c.rest ++ '\n' :: more).dropWhile (· ≠ '<') = _
    have hempty : (c.rest.dropWhile (· ≠ '<')).isEmpty = true := List.isEmpty_iff.2 h
    rw [List.dropWhile_append, if_pos hempty, List.dropWhile_cons_of_pos (by decide)]
  rw [hrest]
  exact Text.length_dropWhile_le more

end Cursor

/-! ## Tokens -/

namespace Token

variable {c : Cursor} (more : List Char)

/-- A movement past the line end leads to a later line. -/
theorem line_lt_of_leads {cs : List Char} {d : Cursor} (h : (c.continued more).Leads cs d)
    (hrest : d.rest.length ≤ more.length) : c.atEnd.position.line < d.position.line := by
  have hsplit : c.rest ++ '\n' :: more = cs ++ d.rest := h.rest_eq
  obtain ⟨behind, hbehind⟩ : c.rest ++ ['\n'] <+: cs := by
    have hprefix : c.rest ++ ['\n'] <+: cs ++ d.rest := by
      rw [← hsplit, List.prefix_append_right_inj]
      exact List.prefix_append ['\n'] more
    have hlength := congrArg List.length hsplit
    refine List.prefix_of_prefix_length_le hprefix (List.prefix_append cs d.rest) ?_
    simp only [List.length_append, List.length_cons, List.length_nil] at hlength ⊢
    omega
  have hplace : d.position = ((c.atEnd.position.after '\n').afterAll behind) := by
    rw [h.position_eq, ← hbehind, Position.afterAll_append, Position.afterAll_append]
    rfl
  have hle : c.atEnd.position.after '\n' ≤ d.position := hplace ▸ Position.le_afterAll _ _
  have hline : (c.atEnd.position.after '\n').line = c.atEnd.position.line + 1 := rfl
  rw [Position.le_def] at hle
  omega

/-- No token from a place on ends in front of it. -/
theorem Ordered.le_of_stop? {p q stop : Position} {tokens : List Token} {token : Token}
    (h : Ordered p tokens q) (hmem : token ∈ tokens) (hstop : token.stop? = some stop) :
    p ≤ stop := by
  induction h with
  | nil => simp at hmem
  | startTag hstart hlt _ ih =>
    have hle := Position.le_trans hstart (Position.le_of_lt hlt)
    rcases List.mem_cons.1 hmem with rfl | hmem
    · exact Option.some.inj hstop ▸ hle
    · exact Position.le_trans hle (ih hmem)
  | endTag hle _ ih =>
    rcases List.mem_cons.1 hmem with rfl | hmem
    · exact Option.some.inj hstop ▸ hle
    · exact Position.le_trans hle (ih hmem)
  | aside _ ih =>
    rcases List.mem_cons.1 hmem with rfl | hmem
    · simp [stop?] at hstop
    · exact ih hmem
  | stray _ ih =>
    rcases List.mem_cons.1 hmem with rfl | hmem
    · simp [stop?] at hstop
    · exact ih hmem

/-- What is read behind the line end ends on a later line. -/
theorem line_lt_of_mem_readAll {cs : List Char} {d : Cursor} (h : (c.continued more).Leads cs d)
    (hrest : d.rest.length ≤ more.length) {token : Token} (hmem : token ∈ readAll d) {p : Position}
    (hstop : token.stop? = some p) : c.atEnd.position.line < p.line := by
  have hlt := line_lt_of_leads more h hrest
  have hle := (ordered_readAll d).le_of_stop? hmem hstop
  rw [Position.le_def] at hle
  omega

/-- When a text goes on behind a line end, its tokens stay up to the first that does not end, and
all others end on later lines. -/
theorem readAll_continued (c : Cursor) (more : List Char) :
    ∃ later, readAll (c.continued more) = (readAll c).takeWhile isEnded ++ later ∧
      ∀ token ∈ later, ∀ p, token.stop? = some p → c.atEnd.position.line < p.line := by
  induction c using readAll_induction with
  | nil c hmark =>
    have hseek : (c.continued more).Leads _ (c.continued more).seekMarkup :=
      Cursor.Leads.skipWhile _ _
    refine ⟨readAll (c.continued more), ?_, fun token hmem p hstop => ?_⟩
    · rw [readAll_eq_nil hmark, List.takeWhile_nil, List.nil_append]
    · rw [← readAll_seekMarkup] at hmem
      exact line_lt_of_mem_readAll more hseek
        (Cursor.length_rest_seekMarkup_continued_le hmark) hmem hstop
  | cons c hmark ih =>
    have hseek : (c.continued more).Leads _ (c.continued more).seekMarkup :=
      Cursor.Leads.skipWhile _ _
    have hseek' : (c.continued more).seekMarkup = c.seekMarkup.continued more :=
      Cursor.seekMarkup_continued hmark
    have hmark' : (c.continued more).seekMarkup.rest ≠ [] := by
      rw [hseek']
      exact List.append_ne_nil_of_right_ne_nil _ (List.cons_ne_nil _ _)
    have hread := continues_read more parts_feed hmark
    rw [readAll_eq_cons hmark, readAll_eq_cons hmark', hseek', Cursor.continued_eq_followed]
    cases hended : (read c.seekMarkup).1.isEnded with
    | true =>
      obtain ⟨later, hlater, hlines⟩ := ih
      obtain ⟨cs, hleads⟩ := (reads_read c.seekMarkup).leads
      have hatEnd : (read c.seekMarkup).2.atEnd = c.atEnd :=
        hleads.atEnd_eq.trans (Cursor.Leads.skipWhile (· ≠ '<') c).atEnd_eq
      refine ⟨later, ?_, hatEnd ▸ hlines⟩
      rw [hread.of_isEnded hended, ← Cursor.continued_eq_followed, hlater,
        List.takeWhile_cons_of_pos hended, List.cons_append]
    | false =>
      -- the first token that does not end takes the line end with it
      have hle := hread.of_not_isEnded hended
      have hreads := reads_read (c.seekMarkup.continued more)
      obtain ⟨cs, hleads⟩ := hreads.leads
      rw [hseek'] at hseek
      have hleads' := hseek.trans hleads
      refine ⟨_, by rw [List.takeWhile_cons_of_neg (by simp [hended]), List.nil_append],
        fun token hmem p hstop => ?_⟩
      rcases List.mem_cons.1 hmem with rfl | hmem
      · rw [hreads.stop_eq hstop]
        exact line_lt_of_leads more hleads' hle
      · exact line_lt_of_mem_readAll more hleads' hle hmem hstop

/-- When all tokens of a text have ended, the tokens of what follows behind a line end come behind
them. -/
theorem readAll_continued_of_isEnded {c : Cursor} (hended : ∀ token ∈ readAll c, token.isEnded)
    (more : List Char) :
    readAll (c.continued more) =
      readAll c ++ readAll ⟨c.atEnd.position.after '\n', more⟩ := by
  -- the line end is passed over with what stands in front of the next mark
  have hfeed : Cursor.seekMarkup ⟨c.atEnd.position, '\n' :: more⟩ =
      Cursor.seekMarkup ⟨c.atEnd.position.after '\n', more⟩ := rfl
  rw [Cursor.continued_eq_followed, readAll_followed_of_isEnded parts_feed hended,
    ← readAll_seekMarkup ⟨_, '\n' :: more⟩, hfeed, readAll_seekMarkup]

end Token

end Markup

end MarkupOutline
