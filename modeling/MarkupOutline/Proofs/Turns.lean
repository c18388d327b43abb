import MarkupOutline.Proofs.LineReading

/-!
# Reading in turns

The tokens of a text can be read in turns that look at one line at a time: a turn reads the token at
the next `<` of its line, or goes to the next line when there is none (`turn`). The turns read the
tokens of the text (`filterMap_token_turns`). Each of them takes a `<` or a line end of what is
left, whatever the text, so there are no more turns than these (`length_turns_le`).
-/

namespace MarkupOutline

/-- No carriage return that goes is another character. -/
theorem Text.count_withLineFeeds {x : Char} (hx : x ≠ '\r') (cs : List Char) :
    (withLineFeeds cs).count x = cs.count x := by
  induction cs with
  | nil => rfl
  | cons c cs ih =>
    rw [withLineFeeds_cons]
    split
    · next hreturn =>
      rw [Bool.and_eq_true, decide_eq_true_eq] at hreturn
      rw [ih, hreturn.1, List.count_cons_of_ne (Ne.symm hx)]
    · rw [List.count_cons, List.count_cons, ih]

namespace Markup

/-! ## The next line -/

namespace Cursor

/-- What is left of the line. -/
def line (c : Cursor) : List Char :=
  c.rest.takeWhile (· ≠ '\n')

/-- The start of the next line, if there is one. -/
def nextLine? (c : Cursor) : Option Cursor :=
  match c.rest.dropWhile (· ≠ '\n') with
  | [] => none
  | _ :: below => some ⟨⟨c.position.line + 1, 0⟩, below⟩

theorem feed_not_mem_line (c : Cursor) : '\n' ∉ c.line := by
  intro hmem
  simpa using List.mem_takeWhile_imp hmem

/-- The next line begins behind the line end. -/
theorem leads_of_nextLine? {c d : Cursor} (h : c.nextLine? = some d) :
    c.Leads (c.line ++ ['\n']) d := by
  have hsplit : c.line ++ c.rest.dropWhile (· ≠ '\n') = c.rest := List.takeWhile_append_dropWhile
  have hfeed := List.head?_dropWhile_not (fun x : Char => decide (x ≠ '\n')) c.rest
  unfold nextLine? at h
  cases hbelow : c.rest.dropWhile (· ≠ '\n') with
  | nil =>
    rw [hbelow] at h
    simp at h
  | cons x below =>
    rw [hbelow] at h hsplit hfeed
    obtain rfl : x = '\n' := by simpa using hfeed
    rw [← Option.some.inj h]
    refine ⟨by rw [← hsplit, List.append_assoc]; rfl, ?_⟩
    rw [Position.afterAll_append, Position.afterAll_eq_right c.feed_not_mem_line]
    rfl

/-- On the last line nothing is left but the line. -/
theorem line_eq_of_nextLine? {c : Cursor} (h : c.nextLine? = none) : c.line = c.rest := by
  have hsplit : c.line ++ c.rest.dropWhile (· ≠ '\n') = c.rest := List.takeWhile_append_dropWhile
  unfold nextLine? at h
  cases hbelow : c.rest.dropWhile (· ≠ '\n') with
  | nil => rw [hbelow, List.append_nil] at hsplit; exact hsplit
  | cons x below =>
    rw [hbelow] at h
    simp at h

/-- A mark on the line is the next mark. -/
theorem seekMarkup_ne_nil_of_mem_line {c : Cursor} (h : '<' ∈ c.line) :
    c.seekMarkup.rest ≠ [] := by
  intro hnil
  have hplain := List.dropWhile_eq_nil_iff.1 hnil _ ((List.takeWhile_sublist _).subset h)
  exact absurd hplain (by decide)

end Cursor

/-! ## Turns -/

/-- A turn of a reading: where it begins, the token that it reads, if any, and where the next turn
begins, unless it would be past the last line. -/
structure Turn where
  here : Cursor
  token : Option Token
  next : Option Cursor

/-- The turn that begins at a cursor. A token that does not end leads past the last line. -/
def turn (c : Cursor) : Turn :=
  if '<' ∈ c.line then
    ⟨c, some (Token.read c.seekMarkup).1,
      if (Token.read c.seekMarkup).1.isEnded then some (Token.read c.seekMarkup).2 else none⟩
  else ⟨c, none, c.nextLine?⟩

theorem turn_of_mem_line {c : Cursor} (h : '<' ∈ c.line) :
    turn c = ⟨c, some (Token.read c.seekMarkup).1,
      if (Token.read c.seekMarkup).1.isEnded then some (Token.read c.seekMarkup).2 else none⟩ :=
  if_pos h

theorem turn_of_not_mem_line {c : Cursor} (h : '<' ∉ c.line) : turn c = ⟨c, none, c.nextLine?⟩ :=
  if_neg h

theorem here_turn (c : Cursor) : (turn c).here = c := by
  unfold turn
  split <;> rfl

/-- A token passes over the mark that it begins with. -/
theorem exists_leads_read {c : Cursor} (h : c.seekMarkup.rest ≠ []) :
    ∃ cs, c.seekMarkup.Leads ('<' :: cs) (Token.read c.seekMarkup).2 := by
  obtain ⟨rest, hmark⟩ := Cursor.exists_rest_seekMarkup h
  obtain ⟨cs, hleads⟩ := (Token.reads_read c.seekMarkup).leads
  cases cs with
  | nil =>
    have hlt := Token.length_rest_read_lt h
    rw [hleads.rest_eq, List.nil_append] at hlt
    exact absurd hlt (Nat.lt_irrefl _)
  | cons x cs =>
    have hrest := hleads.rest_eq
    rw [hmark, List.cons_append, List.cons.injEq] at hrest
    exact ⟨cs, hrest.1 ▸ hleads⟩

/-- The next turn begins further on: behind a mark, or behind a line end. -/
theorem exists_leads_turn {c d : Cursor} (h : (turn c).next = some d) :
    ∃ cs x ds, c.Leads (cs ++ x :: ds) d ∧ (x = '<' ∨ x = '\n') := by
  by_cases hline : '<' ∈ c.line
  · rw [turn_of_mem_line hline] at h
    dsimp only at h
    split at h
    · rw [← Option.some.inj h]
      obtain ⟨cs, hread⟩ := exists_leads_read (Cursor.seekMarkup_ne_nil_of_mem_line hline)
      exact ⟨_, '<', cs, (Cursor.Leads.skipWhile (· ≠ '<') c).trans hread, .inl rfl⟩
    · simp at h
  · rw [turn_of_not_mem_line hline] at h
    exact ⟨c.line, '\n', [], Cursor.leads_of_nextLine? h, .inr rfl⟩

/-! ## All turns -/

/-- The marks and line ends that are left, that of the last line counted. -/
def turnsLeft (c : Cursor) : Nat :=
  c.rest.count '<' + c.rest.count '\n' + 1

/-- A turn takes a mark or a line end. -/
theorem turnsLeft_lt {c d : Cursor} (h : (turn c).next = some d) : turnsLeft d < turnsLeft c := by
  obtain ⟨cs, x, ds, hleads, hx⟩ := exists_leads_turn h
  unfold turnsLeft
  rw [hleads.rest_eq]
  rcases hx with rfl | rfl
  · have hfeeds : ('<' :: ds).count '\n' = ds.count '\n' := List.count_cons_of_ne (by decide)
    simp only [List.count_append, List.count_cons_self, hfeeds]
    omega
  · have hmarks : ('\n' :: ds).count '<' = ds.count '<' := List.count_cons_of_ne (by decide)
    simp only [List.count_append, List.count_cons_self, hmarks]
    omega

/-- The turns of a reading from a cursor on. -/
def turns (c : Cursor) : List Turn :=
  turn c :: match _ : (turn c).next with
    | none => []
    | some d => turns d
termination_by turnsLeft c
decreasing_by
  exact turnsLeft_lt ‹_›

theorem turns_of_next_eq_none {c : Cursor} (h : (turn c).next = none) : turns c = [turn c] := by
  rw [turns]
  split
  · rfl
  · next d hd =>
    rw [h] at hd
    simp at hd

theorem turns_of_next_eq_some {c d : Cursor} (h : (turn c).next = some d) :
    turns c = turn c :: turns d := by
  rw [turns]
  split
  · next hnone =>
    rw [h] at hnone
    simp at hnone
  · next e he =>
    rw [h] at he
    rw [Option.some.inj he]

/-- Induction along the turns of a reading. -/
@[elab_as_elim]
theorem turns_induction {motive : Cursor → Prop}
    (last : ∀ c, (turn c).next = none → motive c)
    (step : ∀ c d, (turn c).next = some d → motive d → motive c) (c : Cursor) : motive c := by
  cases h : (turn c).next with
  | none => exact last c h
  | some d => exact step c d h (turns_induction last step d)
termination_by turnsLeft c
decreasing_by
  exact turnsLeft_lt h

/-- There are no more turns than marks and lines. -/
theorem length_turns_le (c : Cursor) : (turns c).length ≤ turnsLeft c := by
  induction c using turns_induction with
  | last c h =>
    rw [turns_of_next_eq_none h]
    exact Nat.le_add_left 1 _
  | step c d h ih =>
    have hlt := turnsLeft_lt h
    rw [turns_of_next_eq_some h, List.length_cons]
    omega

/-! ## The tokens of the turns -/

/-- The turns read the tokens of a text, in order. -/
theorem filterMap_token_turns (c : Cursor) :
    (turns c).filterMap Turn.token = Token.readAll c := by
  induction c using turns_induction with
  | last c h =>
    rw [turns_of_next_eq_none h]
    by_cases hline : '<' ∈ c.line
    · have hmark := Cursor.seekMarkup_ne_nil_of_mem_line hline
      rw [turn_of_mem_line hline] at h ⊢
      -- a token that does not end leaves nothing behind it to read
      have hended : (Token.read c.seekMarkup).1.isEnded = false := by simpa using h
      rw [Token.readAll_eq_cons hmark,
        Token.readAll_of_rest_eq_nil (Token.rest_read_of_not_isEnded hended)]
      rfl
    · rw [turn_of_not_mem_line hline] at h ⊢
      -- there is no mark on the last line, so there is none in what is left
      have hlast : '<' ∉ c.rest := Cursor.line_eq_of_nextLine? h ▸ hline
      rw [Token.readAll_eq_of_leads (Cursor.Leads.atEnd c) hlast, Token.readAll_of_rest_eq_nil rfl]
      rfl
  | step c d h ih =>
    rw [turns_of_next_eq_some h]
    by_cases hline : '<' ∈ c.line
    · have hmark := Cursor.seekMarkup_ne_nil_of_mem_line hline
      rw [turn_of_mem_line hline] at h ⊢
      have hnext : (Token.read c.seekMarkup).2 = d := by
        dsimp only at h
        split at h
        · exact Option.some.inj h
        · simp at h
      rw [Token.readAll_eq_cons hmark, hnext, ← ih]
      rfl
    · rw [turn_of_not_mem_line hline] at h ⊢
      -- the turn passes over text without a mark, in which no token begins
      have hplain : '<' ∉ c.line ++ ['\n'] := by
        rw [List.mem_append, not_or]
        exact ⟨hline, by decide⟩
      rw [Token.readAll_eq_of_leads (Cursor.leads_of_nextLine? h) hplain, ← ih]
      rfl

/-! ## The turns on the lines -/

namespace LineCursor

/-- The turns of a reading of lines: where each begins, and the token that it reads, if any. -/
def turns (c : LineCursor) : List (LineCursor × Option Token) :=
  if _ : c.left = [] then [] else (c, c.turn.1) :: turns c.turn.2
termination_by c.size
decreasing_by
  exact size_turn_lt ‹_›

variable {c : LineCursor}

theorem turns_of_left_eq_nil (h : c.left = []) : c.turns = [] := by
  rw [turns, dif_pos h]

theorem turns_of_left_ne_nil (h : c.left ≠ []) : c.turns = (c, c.turn.1) :: c.turn.2.turns := by
  rw [turns, dif_neg h]

/-- The turns read the tokens of the lines. -/
theorem filterMap_token_turns (c : LineCursor) : c.turns.filterMap (·.2) = c.tokens := by
  induction c using turn_induction with
  | done c h => rw [turns_of_left_eq_nil h, tokens_of_left_eq_nil h, List.filterMap_nil]
  | step c h ih =>
    rw [turns_of_left_ne_nil h, tokens_eq h, List.filterMap_cons, ih]
    cases c.turn.1 with
    | none => rfl
    | some token => rfl

theorem line_flat (hfree : c.FeedFree) : c.flat.line = c.here := by
  rw [Cursor.line, rest_flat, Text.takeWhile_append_behindLine (by decide),
    List.takeWhile_eq_self_iff.2 hfree.ne_of_mem_here]

theorem nextLine?_flat (hfree : c.FeedFree) :
    c.flat.nextLine? = if c.left.tail = [] then none else some c.below.flat := by
  have hdrop : c.flat.rest.dropWhile (· ≠ '\n') = Text.behindLine c.left.tail := by
    rw [rest_flat, List.dropWhile_append_of_pos hfree.ne_of_mem_here, Text.behindLine]
    split
    · rfl
    · rw [List.dropWhile_cons_of_neg (by decide)]
  rw [Cursor.nextLine?, hdrop, Text.behindLine]
  by_cases htail : c.left.tail = []
  · rw [if_pos htail, if_pos htail]
  · rw [if_neg htail, if_neg htail]
    rfl

/-- A turn on the lines and one in their text that begin at the same place and read the same. -/
structure SameTurn (s : LineCursor × Option Token) (t : Turn) : Prop where
  here_eq : s.1.flat = t.here
  alike : Option.Rel (Token.Alike .all) s.2 t.token

/-- The turns on the lines are those in their text, one by one. -/
theorem forall₂_turns (hfree : c.FeedFree) (h : c.left ≠ []) :
    List.Forall₂ SameTurn c.turns (Markup.turns c.flat) := by
  induction c using turn_induction with
  | done c hleft => exact absurd hleft h
  | step c _ ih =>
    rw [turns_of_left_ne_nil h]
    rcases turn_cases hfree with ⟨token, d, hturn, hmem, hrefines, -⟩ | ⟨hturn, hplain⟩
    · rw [hturn] at ih ⊢
      have hread := turn_of_mem_line (c := c.flat) (by rwa [line_flat hfree])
      have hsame : SameTurn (c, some token) (Markup.turn c.flat) := by
        rw [hread]
        exact ⟨rfl, .some hrefines.alike⟩
      cases hended : (Token.read c.flat.seekMarkup).1.isEnded with
      | true =>
        obtain ⟨hflat, hleft⟩ := hrefines.of_isEnded hended
        rw [turns_of_next_eq_some (d := d.flat) (by rw [hread, if_pos hended, hflat])]
        exact .cons hsame (ih hrefines.feedFree hleft)
      | false =>
        have hleft := (hrefines.of_not_isEnded hended).1
        rw [turns_of_next_eq_none (by rw [hread, hended]; rfl), turns_of_left_eq_nil hleft]
        exact .cons hsame .nil
    · rw [hturn] at ih ⊢
      have hpass := turn_of_not_mem_line (c := c.flat) (by rwa [line_flat hfree])
      have hsame : SameTurn (c, none) (Markup.turn c.flat) := by
        rw [hpass]
        exact ⟨rfl, .none⟩
      have hnext := nextLine?_flat hfree
      by_cases htail : c.left.tail = []
      · rw [turns_of_next_eq_none (by rw [hpass, hnext, if_pos htail]), turns_of_left_eq_nil htail]
        exact .cons hsame .nil
      · rw [turns_of_next_eq_some (d := c.below.flat) (by rw [hpass, hnext, if_neg htail])]
        exact .cons hsame (ih hfree.below htail)

end LineCursor

/-! ## Progress -/

/-- Where the turn behind a turn begins; past the last line there is column 0 of a line that the
text does not have. -/
def Turn.nextPlace (ls : List (List Char)) (t : Turn) : Position :=
  match t.next with
  | some d => d.position
  | none => ⟨ls.length, 0⟩

/-- The cursor stands on one of the lines, and not beyond its end. -/
def Cursor.IsOnLine (ls : List (List Char)) (c : Cursor) : Prop :=
  ∃ n k : Nat, c = onLine ls n k ∧ Text.Within ls n k

/-- A turn goes from a place on a line further on, to another such place or past the last line; and
if it reads a token, the token is the one that begins at the next mark, and the turn goes beyond
this mark. -/
structure Turn.Progresses (ls : List (List Char)) (t : Turn) : Prop where
  here_isOnLine : t.here.IsOnLine ls
  next_isOnLine : ∀ d ∈ t.next, d.IsOnLine ls
  here_lt_next : t.here.position < t.nextPlace ls
  mark_lt_next : ∀ token ∈ t.token, (∃ rest, t.here.seekMarkup.rest = '<' :: rest) ∧
    token = (Token.read t.here.seekMarkup).1 ∧ t.here.seekMarkup.position < t.nextPlace ls

variable {ls : List (List Char)}

theorem Cursor.IsOnLine.position_lt {c : Cursor} (h : c.IsOnLine ls) :
    c.position < ⟨ls.length, 0⟩ := by
  obtain ⟨n, k, rfl, hwithin⟩ := h
  exact Or.inl (Int.ofNat_lt.2 hwithin.lt_length)

theorem Cursor.Leads.isOnLine (hls : ∀ l ∈ ls, '\n' ∉ l) {c d : Cursor} {cs : List Char}
    (h : c.Leads cs d) (hc : c.IsOnLine ls) : d.IsOnLine ls := by
  obtain ⟨n, k, rfl, hwithin⟩ := hc
  exact h.exists_onLine hls hwithin

/-- A movement over some text comes to a later position. -/
theorem Cursor.Leads.position_lt_of_ne_nil {c d : Cursor} {cs : List Char} (h : c.Leads cs d)
    (hcs : cs ≠ []) : c.position < d.position := by
  rw [h.position_eq]
  exact Position.lt_afterAll _ hcs

/-- A turn that begins on a line progresses. -/
theorem progresses_turn (hls : ∀ l ∈ ls, '\n' ∉ l) {c : Cursor} (hc : c.IsOnLine ls) :
    (turn c).Progresses ls where
  here_isOnLine := by rwa [here_turn]
  next_isOnLine d hd := by
    obtain ⟨cs, x, ds, hleads, _⟩ := exists_leads_turn hd
    exact hleads.isOnLine hls hc
  here_lt_next := by
    rw [here_turn, Turn.nextPlace]
    cases h : (turn c).next with
    | none => exact hc.position_lt
    | some d =>
      obtain ⟨cs, x, ds, hleads, _⟩ := exists_leads_turn h
      exact hleads.position_lt_of_ne_nil (by simp)
  mark_lt_next token htoken := by
    rw [here_turn]
    by_cases hline : '<' ∈ c.line
    · have hmark := Cursor.seekMarkup_ne_nil_of_mem_line hline
      rw [turn_of_mem_line hline] at htoken ⊢
      refine ⟨Cursor.exists_rest_seekMarkup hmark, (Option.some.inj htoken).symm, ?_⟩
      unfold Turn.nextPlace
      dsimp only
      split
      · next d hd =>
        obtain ⟨cs, hleads⟩ := exists_leads_read hmark
        split at hd
        · rw [← Option.some.inj hd]
          exact hleads.position_lt_of_ne_nil (by simp)
        · simp at hd
      · exact ((Cursor.Leads.skipWhile (· ≠ '<') c).isOnLine hls hc).position_lt
    · rw [turn_of_not_mem_line hline] at htoken
      simp at htoken

theorem progresses_of_mem_turns (hls : ∀ l ∈ ls, '\n' ∉ l) {c : Cursor} (hc : c.IsOnLine ls) :
    ∀ t ∈ turns c, t.Progresses ls := by
  induction c using turns_induction with
  | last c h =>
    rw [turns_of_next_eq_none h, List.forall_mem_singleton]
    exact progresses_turn hls hc
  | step c d h ih =>
    have hprogress := progresses_turn hls hc
    rw [turns_of_next_eq_some h, List.forall_mem_cons]
    exact ⟨hprogress, ih (hprogress.next_isOnLine d h)⟩

/-- Reading always makes progress. The turns of a reading of the lines read the tokens of the lines,
and one by one they begin where the turns of a reading of the text do, and read the same. The turns
of a reading read the tokens of the text; each goes further on, from a place on a line to another or
past the last line, and beyond the mark that it reads a token at; and there are no more of them than
marks and lines. -/
theorem turns_progress (text : String) :
    (LineCursor.turns (.ofLines (Text.lines text.toList))).filterMap (·.2) =
        LineCursor.tokens (.ofLines (Text.lines text.toList)) ∧
      List.Forall₂ LineCursor.SameTurn (LineCursor.turns (.ofLines (Text.lines text.toList)))
        (turns (Cursor.ofText text.toList)) ∧
      (turns (Cursor.ofText text.toList)).filterMap Turn.token = tokensOf text ∧
      (∀ t ∈ turns (Cursor.ofText text.toList), t.Progresses (Text.lines text.toList)) ∧
      (turns (Cursor.ofText text.toList)).length ≤
        text.toList.count '<' + Text.lineCount text.toList := by
  have hls : ∀ l ∈ Text.lines text.toList, '\n' ∉ l := fun l => Text.feed_not_mem_of_mem_lines
  have hlines := LineCursor.forall₂_turns (LineCursor.feedFree_ofLines text.toList)
    (Text.lines_ne_nil text.toList)
  rw [LineCursor.flat_ofLines] at hlines
  have hstart : (Cursor.ofText text.toList).IsOnLine (Text.lines text.toList) :=
    ⟨0, 0, Cursor.ofText_eq_onLine _, Text.within_zero_zero _⟩
  refine ⟨LineCursor.filterMap_token_turns _, hlines, filterMap_token_turns _,
    progresses_of_mem_turns hls hstart, ?_⟩
  have hlength := length_turns_le (Cursor.ofText text.toList)
  have hmarks : (Cursor.ofText text.toList).rest.count '<' = text.toList.count '<' :=
    Text.count_withLineFeeds (by decide) _
  have hfeeds : (Cursor.ofText text.toList).rest.count '\n' = text.toList.count '\n' :=
    Text.count_withLineFeeds (by decide) _
  rw [turnsLeft, hmarks, hfeeds] at hlength
  rw [Text.lineCount]
  omega

end Markup

end MarkupOutline
