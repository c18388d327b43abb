import MarkupOutline.Markup.LineCursor
import MarkupOutline.Proofs.Quoting
import MarkupOutline.Proofs.TagPlaces

/-!
# The text of lines

Lines may be taken for one text in which line feeds stand between them (`LineCursor.flat`). A
movement on the lines passes over a part of that text (`Reaches.leads`), a mark is found at the same
place in both (`past?_cases`), and a tag ends at the same place (`tagEnd?_cases`).
-/

namespace MarkupOutline

namespace Text

/-! ## The lines behind a line -/

/-- The text behind a line: a line feed and the lines below, if there are any. -/
def behindLine (below : List (List Char)) : List Char :=
  if below = [] then [] else '\n' :: ['\n'].intercalate below

theorem intercalate_cons (here : List Char) (below : List (List Char)) :
    ['\n'].intercalate (here :: below) = here ++ behindLine below := by
  cases below with
  | nil => rw [behindLine, if_pos rfl, List.intercalate_singleton, List.append_nil]
  | cons next below =>
    rw [behindLine, if_neg (List.cons_ne_nil _ _), List.intercalate_cons_cons, List.append_assoc,
      List.singleton_append]

/-- What stands in front of the first of some lines stands in front of all. -/
theorem intercalate_append_cons (sep front first : List Char) (others : List (List Char)) :
    sep.intercalate ((front ++ first) :: others) = front ++ sep.intercalate (first :: others) := by
  cases others with
  | nil => rw [List.intercalate_singleton, List.intercalate_singleton]
  | cons next others =>
    rw [List.intercalate_cons_cons, List.intercalate_cons_cons, List.append_assoc,
      List.append_assoc, List.append_assoc]

variable {below : List (List Char)} {p : Char → Bool} {mark : List Char}

theorem takeWhile_append_behindLine (hp : ¬ p '\n') (here : List Char) :
    (here ++ behindLine below).takeWhile p = here.takeWhile p := by
  unfold behindLine
  split
  · rw [List.append_nil]
  · exact takeWhile_append_cons hp here _

theorem isPrefixOf_append_behindLine (hmark : '\n' ∉ mark) (here : List Char)
    (below : List (List Char)) :
    mark.isPrefixOf (here ++ behindLine below) = mark.isPrefixOf here := by
  unfold behindLine
  split
  · rw [List.append_nil]
  · exact isPrefixOf_append_cons hmark here _

theorem head?_append_behindLine {x : Char} (hx : x ≠ '\n') (here : List Char) :
    (here ++ behindLine below).head? = some x ↔ here.head? = some x := by
  cases here with
  | nil =>
    unfold behindLine
    split
    · rfl
    · simp [Ne.symm hx]
  | cons c here => rfl

/-! ## Marks on a line -/

/-- A single character is found behind others. -/
theorem exists_of_find?_singleton_eq_some {x : Char} {cs : List Char} {n : Nat}
    (h : find? [x] cs = some n) : ∃ front more, cs = front ++ x :: more ∧ x ∉ front ∧
      front.length = n := by
  induction cs generalizing n with
  | nil => simp [find?, findFrom?] at h
  | cons c cs ih =>
    rw [find?_cons] at h
    split at h
    · next hprefix =>
      obtain rfl : x = c := by simpa using hprefix
      exact ⟨[], cs, rfl, List.not_mem_nil, Option.some.inj h⟩
    · next hprefix =>
      obtain ⟨m, hm, rfl⟩ := Option.map_eq_some_iff.1 h
      obtain ⟨front, more, rfl, hfront, hlength⟩ := ih hm
      have hc : x ≠ c := by simpa using hprefix
      refine ⟨c :: front, more, rfl, ?_, congrArg (· + 1) hlength⟩
      rw [List.mem_cons, not_or]
      exact ⟨hc, hfront⟩

theorem not_mem_of_find?_singleton_eq_none {x : Char} {cs : List Char}
    (h : find? [x] cs = none) : x ∉ cs := by
  induction cs with
  | nil => exact List.not_mem_nil
  | cons c cs ih =>
    rw [find?_cons] at h
    split at h
    · simp at h
    · next hprefix =>
      rw [List.mem_cons, not_or]
      exact ⟨by simpa using hprefix, ih (Option.map_eq_none_iff.1 h)⟩

/-- On a line no blank ends the line. -/
theorem takeWhile_isInlineBlank {cs : List Char} (h : '\n' ∉ cs) :
    cs.takeWhile isInlineBlank = cs.takeWhile isBlank := by
  induction cs with
  | nil => rfl
  | cons c cs ih =>
    rw [List.mem_cons, not_or] at h
    have hinline : isInlineBlank c = isBlank c := by
      rw [isInlineBlank, (bne_iff_ne (a := c) (b := '\n')).2 (Ne.symm h.1), Bool.and_true]
    rw [List.takeWhile_cons, List.takeWhile_cons, hinline, ih h.2]

end Text

namespace Markup

/-- A mark that is found on a line is the first one in the text. -/
theorem Cursor.pastFrom?_of_find?_eq_some {mark : List Char} (hmark : '\n' ∉ mark) {n : Nat}
    {here : List Char} (h : Text.find? mark here = some n) (p : Position)
    (below : List (List Char)) :
    pastFrom? mark p (here ++ Text.behindLine below) =
      some (advance ⟨p, here ++ Text.behindLine below⟩ (n + mark.length)) := by
  induction here generalizing n p with
  | nil => simp [Text.find?, Text.findFrom?] at h
  | cons c here ih =>
    have hbegins := Text.isPrefixOf_append_behindLine hmark (c :: here) below
    rw [Text.find?_cons, ← hbegins] at h
    rw [List.cons_append] at h ⊢
    rw [pastFrom?]
    split at h
    · next hprefix => rw [if_pos hprefix, ← Option.some.inj h, Nat.zero_add]
    · next hprefix =>
      obtain ⟨m, hm, rfl⟩ := Option.map_eq_some_iff.1 h
      rw [if_neg hprefix, ih hm, Nat.add_right_comm]
      rfl

/-- A line in which a mark does not stand is passed over. -/
theorem Cursor.pastFrom?_of_find?_eq_none {mark : List Char} (hmark : '\n' ∉ mark)
    {here : List Char} (h : Text.find? mark here = none) (p : Position)
    (below : List (List Char)) :
    pastFrom? mark p (here ++ Text.behindLine below) =
      pastFrom? mark (p.afterAll here) (Text.behindLine below) := by
  induction here generalizing p with
  | nil => rfl
  | cons c here ih =>
    have hbegins := Text.isPrefixOf_append_behindLine hmark (c :: here) below
    rw [Text.find?_cons, ← hbegins] at h
    rw [List.cons_append] at h ⊢
    rw [pastFrom?]
    split at h
    · simp at h
    · next hprefix =>
      rw [if_neg hprefix, ih (Option.map_eq_none_iff.1 h)]
      rfl

/-- No mark begins at a line end. -/
theorem Cursor.pastFrom?_behindLine {mark : List Char} (hmark : '\n' ∉ mark) (hne : mark ≠ [])
    (p : Position) (below : List (List Char)) :
    pastFrom? mark p (Text.behindLine below) =
      pastFrom? mark (p.after '\n') (['\n'].intercalate below) := by
  unfold Text.behindLine
  split
  · next hnil =>
    rw [hnil]
    rfl
  · obtain ⟨m, mark, rfl⟩ := List.exists_cons_of_ne_nil hne
    rw [List.mem_cons, not_or] at hmark
    rw [pastFrom?, if_neg]
    simp [Ne.symm hmark.1]

/-- A line end opens no value and closes none. -/
theorem quoteBehind?_behindLine {quote : Option Char} (hquote : ∀ q ∈ quote, Attributes.isQuote q)
    (below : List (List Char)) :
    quoteBehind? quote (Text.behindLine below) = quoteBehind? quote (['\n'].intercalate below) := by
  unfold Text.behindLine
  split
  · next hnil =>
    rw [hnil]
    rfl
  · exact quoteBehind?_cons_of_isBlank hquote rfl _

theorem readBody_of_leads {body : List Char} (hbody : quoteBehind? none body = some none)
    {c d : Cursor} (h : c.Leads (body ++ ['>']) d) : readBody c = ⟨body, true, d⟩ := by
  obtain ⟨p, cs⟩ := c
  obtain ⟨q, rest⟩ := d
  obtain ⟨hrest, hplace⟩ := h
  obtain rfl : cs = body ++ '>' :: rest := by simpa using hrest
  obtain rfl : q = _ := hplace
  exact readBody_of_balanced (balanced_iff.2 hbody) p rest

namespace LineCursor

/-! ## The text of the lines -/

/-- The same place in the text of the lines. -/
def flat (c : LineCursor) : Cursor :=
  ⟨c.position, ['\n'].intercalate c.left⟩

/-- No line feed stands on the lines that are left. -/
def FeedFree (c : LineCursor) : Prop :=
  ∀ l ∈ c.left, '\n' ∉ l

variable {c d : LineCursor} {n : Nat}

theorem rest_flat (c : LineCursor) : c.flat.rest = c.here ++ Text.behindLine c.left.tail := by
  obtain ⟨line, column, left⟩ := c
  cases left with
  | nil => rfl
  | cons here below => exact Text.intercalate_cons here below

theorem FeedFree.here (h : c.FeedFree) : '\n' ∉ c.here := by
  obtain ⟨line, column, left⟩ := c
  cases left with
  | nil => exact List.not_mem_nil
  | cons here below => exact h here List.mem_cons_self

theorem FeedFree.ne_of_mem_here (h : c.FeedFree) : ∀ x ∈ c.here, decide (x ≠ '\n') = true :=
  fun _ hx => decide_eq_true fun heq => h.here (heq ▸ hx)

theorem FeedFree.right (h : c.FeedFree) (n : Nat) : (c.right n).FeedFree := by
  obtain ⟨line, column, left⟩ := c
  cases left with
  | nil => exact h
  | cons here below =>
    refine List.forall_mem_cons.2 ⟨fun hmem => ?_, fun l hl => h l (List.mem_cons_of_mem _ hl)⟩
    exact h here List.mem_cons_self (List.mem_of_mem_drop hmem)

theorem FeedFree.below (h : c.FeedFree) : c.below.FeedFree :=
  fun l hl => h l (List.mem_of_mem_tail hl)

theorem here_right (c : LineCursor) (n : Nat) : (c.right n).here = c.here.drop n := by
  obtain ⟨line, column, left⟩ := c
  cases left with
  | nil => exact List.drop_nil.symm
  | cons here below => rfl

theorem tail_left_right (c : LineCursor) (n : Nat) : (c.right n).left.tail = c.left.tail := by
  obtain ⟨line, column, left⟩ := c
  cases left with
  | nil => rfl
  | cons here below => rfl

theorem right_right (c : LineCursor) (m n : Nat) : (c.right m).right n = c.right (m + n) := by
  obtain ⟨line, column, left⟩ := c
  cases left with
  | nil => simp [right, Nat.add_assoc]
  | cons here below => simp [right, Nat.add_assoc]

/-- A movement on a line is a movement in the text. -/
theorem flat_right (hfree : c.FeedFree) (h : n ≤ c.here.length) :
    (c.right n).flat = c.flat.advance n := by
  have htake : c.flat.rest.take n = c.here.take n := by
    rw [rest_flat, List.take_append_of_le_length h]
  have hdrop : c.flat.rest.drop n = (c.right n).flat.rest := by
    rw [rest_flat, rest_flat, here_right, tail_left_right, List.drop_append_of_le_length h]
  have hplace : c.flat.position.afterAll (c.here.take n) = (c.right n).position := by
    rw [Position.afterAll_eq_right fun hmem => hfree.here (List.mem_of_mem_take hmem),
      List.length_take, Nat.min_eq_left h, Position.right]
    exact congrArg _ (Int.natCast_add _ _).symm
  rw [Cursor.advance, htake, hdrop, hplace]
  rfl

theorem leads_right (hfree : c.FeedFree) (h : n ≤ c.here.length) :
    c.flat.Leads (c.here.take n) (c.right n).flat := by
  have hleads := Cursor.Leads.advance c.flat n
  rwa [rest_flat, List.take_append_of_le_length h, ← flat_right hfree h] at hleads

theorem leads_of_begins (hfree : c.FeedFree) {cs : List Char} (h : cs <+: c.here) :
    c.flat.Leads cs (c.right cs.length).flat := by
  have hleads := leads_right hfree h.length_le
  rwa [← List.prefix_iff_eq_take.1 h] at hleads

/-- The next line begins behind a line feed. -/
theorem position_below (hfree : c.FeedFree) :
    c.below.position = (c.position.afterAll c.here).after '\n' := by
  rw [Position.afterAll_eq_right hfree.here]
  rfl

theorem leads_below (hfree : c.FeedFree) (h : c.left.tail ≠ []) :
    c.flat.Leads (c.here ++ ['\n']) c.below.flat where
  rest_eq := by
    rw [rest_flat, Text.behindLine, if_neg h, List.append_assoc]
    rfl
  position_eq := by
    rw [Position.afterAll_append]
    exact position_below hfree

/-- Behind the last line nothing is left. -/
theorem rest_flat_of_tail_eq_nil (h : c.left.tail = []) : c.flat.rest = c.here := by
  rw [rest_flat, h, Text.behindLine, if_pos rfl, List.append_nil]

/-! ## Further down -/

/-- One cursor is a place on the line of another or on one below. -/
inductive Reaches : LineCursor → LineCursor → Prop
  | onLine {c : LineCursor} {n : Nat} (hne : c.left ≠ []) (h : n ≤ c.here.length) :
      Reaches c (c.right n)
  | further {c d : LineCursor} (hne : c.left ≠ []) (h : Reaches c.below d) : Reaches c d

namespace Reaches

theorem start_left_ne_nil (h : Reaches c d) : c.left ≠ [] := by
  cases h with
  | onLine hne _ => exact hne
  | further hne _ => exact hne

theorem line_le (h : Reaches c d) : c.line ≤ d.line := by
  induction h with
  | onLine => exact Nat.le_refl _
  | further _ _ ih => exact Nat.le_of_succ_le ih

theorem stop_left_ne_nil (h : Reaches c d) : d.left ≠ [] := by
  induction h with
  | @onLine c n hne _ =>
    intro hnil
    have hlength := congrArg List.length hnil
    rw [right, List.length_modifyHead] at hlength
    exact hne (List.length_eq_zero_iff.1 hlength)
  | further _ _ ih => exact ih

theorem feedFree (h : Reaches c d) (hfree : c.FeedFree) : d.FeedFree := by
  induction h with
  | onLine => exact hfree.right _
  | further _ _ ih => exact ih hfree.below

/-- What is reached from a place on a line is reached from its beginning. -/
theorem of_right (hn : n ≤ c.here.length) (h : Reaches (c.right n) d) : Reaches c d := by
  have hne : c.left ≠ [] := by
    intro hnil
    exact h.start_left_ne_nil (by rw [right, hnil]; rfl)
  cases h with
  | @onLine _ m _ hm =>
    rw [here_right, List.length_drop] at hm
    rw [right_right]
    exact .onLine hne (by omega)
  | further _ h =>
    have hbelow : (c.right n).below = c.below := by
      rw [LineCursor.below, LineCursor.below, tail_left_right]
      rfl
    exact .further hne (hbelow ▸ h)

end Reaches

theorem piecesTo_zero (c : LineCursor) (column : Nat) :
    c.piecesTo 0 column = [c.here.take (column - c.column)] :=
  if_pos rfl

/-- What stands on the line comes in front of what stands on the lines below. -/
theorem piecesTo_succ (hne : c.left ≠ []) (down column : Nat) :
    c.piecesTo (down + 1) column = c.here :: c.below.piecesTo down column := by
  obtain ⟨line, k, left⟩ := c
  cases left with
  | nil => exact absurd rfl hne
  | cons here others =>
    rw [piecesTo, if_neg (Nat.succ_ne_zero down)]
    cases down with
    | zero =>
      rw [piecesTo_zero]
      rfl
    | succ down =>
      rw [piecesTo, if_neg (Nat.succ_ne_zero down)]
      rfl

theorem piecesTo_ne_nil (c : LineCursor) (down column : Nat) : c.piecesTo down column ≠ [] := by
  unfold piecesTo
  split
  · exact List.cons_ne_nil _ _
  · simp

/-- The pieces of the lines in between, with line feeds between them, are the text in between. -/
theorem Reaches.leads (h : Reaches c d) (hfree : c.FeedFree) :
    c.flat.Leads (['\n'].intercalate (c.piecesTo (d.line - c.line) d.column)) d.flat := by
  induction h with
  | @onLine c n hne hn =>
    have hdown : (c.right n).line - c.line = 0 := Nat.sub_self c.line
    have hcolumn : (c.right n).column - c.column = n := Nat.add_sub_cancel_left c.column n
    rw [hdown, piecesTo_zero, hcolumn, List.intercalate_singleton]
    exact leads_right hfree hn
  | @further c d hne h ih =>
    have hle : c.line + 1 ≤ d.line := h.line_le
    have hdown : d.line - c.line = (d.line - c.below.line) + 1 := by
      show d.line - c.line = d.line - (c.line + 1) + 1
      omega
    have hleads := (leads_below hfree h.start_left_ne_nil).trans (ih hfree.below)
    obtain ⟨first, others, hpieces⟩ :=
      List.exists_cons_of_ne_nil (c.below.piecesTo_ne_nil (d.line - c.below.line) d.column)
    rw [hdown, piecesTo_succ hne, hpieces, List.intercalate_cons_cons, ← hpieces]
    exact hleads

/-! ## Marks and the ends of tags -/

/-- A mark is found on the lines where it is found in their text. -/
theorem past?_cases {mark : List Char} (hmark : '\n' ∉ mark) (hne : mark ≠ [])
    (hfree : c.FeedFree) :
    (∃ d, c.past? mark = some d ∧ c.flat.past? mark = some d.flat ∧ Reaches c d) ∨
    c.past? mark = none ∧ c.flat.past? mark = none := by
  obtain ⟨line, column, left⟩ := c
  unfold past? Cursor.past?
  dsimp only
  induction left generalizing line column with
  | nil => exact .inr ⟨rfl, rfl⟩
  | cons here below ih =>
    have hleft : here :: below ≠ [] := List.cons_ne_nil _ _
    have hrest : (flat ⟨line, column, here :: below⟩).rest = here ++ Text.behindLine below :=
      rest_flat _
    rw [hrest, pastFrom?]
    cases hfind : Text.find? mark here with
    | some n =>
      have hle : n + mark.length ≤ here.length := Text.find?_add_length_le hfind
      refine .inl ⟨_, rfl, ?_, .onLine hleft hle⟩
      rw [Cursor.pastFrom?_of_find?_eq_some hmark hfind, ← hrest]
      exact congrArg some (flat_right hfree hle).symm
    | none =>
      have hbelow : Cursor.pastFrom? mark (flat ⟨line, column, here :: below⟩).position
            (here ++ Text.behindLine below) =
          Cursor.pastFrom? mark (flat ⟨line + 1, 0, below⟩).position
            (flat ⟨line + 1, 0, below⟩).rest := by
        rw [Cursor.pastFrom?_of_find?_eq_none hmark hfind, Cursor.pastFrom?_behindLine hmark hne]
        exact congrArg (Cursor.pastFrom? mark · _) (position_below hfree).symm
      rw [hbelow]
      rcases ih (line + 1) 0 hfree.below with ⟨d, hd, hd', hreaches⟩ | hnone
      · exact .inl ⟨d, hd, hd', .further hleft hreaches⟩
      · exact .inr hnone

/-- Looking for the end of a tag on a line comes to the first `>` behind which no mark is open, or
tells which mark is open at the end of the line. -/
theorem tagEndOnLine_cases (quote : Option Char) (n : Nat) (here : List Char) :
    (∃ front more, here = front ++ '>' :: more ∧ quoteBehind? quote front = some none ∧
      tagEndOnLine quote n here = .ok (n + (front.length + 1))) ∨
    ∃ quote', quoteBehind? quote here = some quote' ∧
      tagEndOnLine quote n here = .error quote' := by
  induction here generalizing quote n with
  | nil => exact .inr ⟨quote, rfl, rfl⟩
  | cons c here ih =>
    have hcons : ∀ mark, (∀ cs, quoteBehind? quote (c :: cs) = quoteBehind? mark cs) →
        tagEndOnLine quote n (c :: here) = tagEndOnLine mark (n + 1) here →
        (∃ front more, c :: here = front ++ '>' :: more ∧ quoteBehind? quote front = some none ∧
          tagEndOnLine quote n (c :: here) = .ok (n + (front.length + 1))) ∨
        ∃ quote', quoteBehind? quote (c :: here) = some quote' ∧
          tagEndOnLine quote n (c :: here) = .error quote' := by
      intro mark hbehind hend
      rcases ih mark (n + 1) with ⟨front, more, rfl, hfront, hok⟩ | ⟨quote', hquote, herror⟩
      · refine .inl ⟨c :: front, more, rfl, (hbehind front).trans hfront, ?_⟩
        rw [hend, hok, List.length_cons]
        congr 1
        omega
      · exact .inr ⟨quote', (hbehind here).trans hquote, hend.trans herror⟩
    cases quote with
    | some q => exact hcons _ (quoteBehind?_some_cons q c) rfl
    | none =>
      by_cases hc : Attributes.isQuote c
      · have hne : c ≠ '>' := by
          rintro rfl
          exact absurd hc (by decide)
        refine hcons (some c) (fun cs => ?_) ?_
        · rw [quoteBehind?_none_cons, if_neg hne, if_pos hc]
        · rw [tagEndOnLine, if_pos hc]
      · by_cases hend : c = '>'
        · refine .inl ⟨[], here, by rw [hend]; rfl, rfl, ?_⟩
          rw [tagEndOnLine, if_neg hc, if_pos hend]
          rfl
        · refine hcons none (fun cs => ?_) ?_
          · rw [quoteBehind?_none_cons, if_neg hend, if_neg hc]
          · rw [tagEndOnLine, if_neg hc, if_neg hend]

/-- The end of a tag is found on the lines at the `>` that ends it in their text; it is not found if
some mark, or none, is open behind all of the text. -/
theorem tagEndFrom?_cases {quote : Option Char} (hquote : ∀ q ∈ quote, Attributes.isQuote q)
    {line column : Nat} {left : List (List Char)} (hfree : FeedFree ⟨line, column, left⟩) :
    (∃ d body, tagEndFrom? quote line column left = some d ∧
      Reaches ⟨line, column, left⟩ d ∧ quoteBehind? quote body = some none ∧
      (flat ⟨line, column, left⟩).Leads (body ++ ['>']) d.flat) ∨
    tagEndFrom? quote line column left = none ∧
      ∃ quote', quoteBehind? quote (['\n'].intercalate left) = some quote' := by
  induction left generalizing quote line column with
  | nil => exact .inr ⟨rfl, quote, rfl⟩
  | cons here below ih =>
    have hne : here :: below ≠ [] := List.cons_ne_nil _ _
    rw [tagEndFrom?]
    rcases tagEndOnLine_cases quote 0 here with
      ⟨front, more, rfl, hfront, hok⟩ | ⟨quote', hbehind, herror⟩
    · have hlength : 0 + (front.length + 1) = (front ++ ['>']).length := by simp
      have hprefix : front ++ ['>'] <+: here ⟨line, column, (front ++ '>' :: more) :: below⟩ :=
        ⟨more, List.append_assoc _ _ _⟩
      rw [hok, hlength]
      exact .inl ⟨_, front, rfl, .onLine hne hprefix.length_le, hfront,
        leads_of_begins hfree hprefix⟩
    · rw [herror]
      have hquote' := isQuote_of_quoteBehind?_eq_some hquote hbehind
      have htext : ∀ cs, quoteBehind? quote (here ++ cs) = quoteBehind? quote' cs := by
        intro cs
        rw [quoteBehind?_append, hbehind, Option.bind_some]
      have hbelow : FeedFree ⟨line + 1, 0, below⟩ := hfree.below
      rcases ih hquote' hbelow with
        ⟨d, body, hd, hreaches, hbody, hleads⟩ | ⟨hnone, quote'', hquote''⟩
      · refine .inl ⟨d, here ++ '\n' :: body, hd, .further hne hreaches, ?_, ?_⟩
        · rw [htext, quoteBehind?_cons_of_isBlank hquote' rfl, hbody]
        · have htail : below ≠ [] := hreaches.start_left_ne_nil
          have hwhole := (leads_below hfree htail).trans hleads
          rwa [List.append_assoc] at hwhole ⊢
      · refine .inr ⟨hnone, quote'', ?_⟩
        rw [Text.intercalate_cons, htext, quoteBehind?_behindLine hquote', hquote'']

theorem tagEnd?_cases (hfree : c.FeedFree) :
    (∃ d body, c.tagEnd? = some d ∧ Reaches c d ∧ quoteBehind? none body = some none ∧
      c.flat.Leads (body ++ ['>']) d.flat) ∨
    c.tagEnd? = none ∧ ∃ quote, quoteBehind? none c.flat.rest = some quote :=
  tagEndFrom?_cases (by simp) hfree

/-- The lines end where their text ends. -/
theorem exists_reaches_lastPlace (hne : c.left ≠ []) :
    ∃ d, Reaches c d ∧ (d.line, d.column) = c.lastPlace ∧ d.flat.rest = [] := by
  obtain ⟨line, column, left⟩ := c
  induction left generalizing line column with
  | nil => exact absurd rfl hne
  | cons here below ih =>
    cases below with
    | nil =>
      refine ⟨_, .onLine hne (Nat.le_refl _), rfl, ?_⟩
      rw [rest_flat_of_tail_eq_nil (tail_left_right _ _), here_right, List.drop_length]
    | cons next below =>
      obtain ⟨d, hreaches, hplace, hrest⟩ := ih (line + 1) 0 (List.cons_ne_nil _ _)
      refine ⟨d, .further hne hreaches, ?_, hrest⟩
      rw [hplace, lastPlace, lastPlace]
      cases below with
      | nil => simp
      | cons last below => simp [Nat.add_assoc, Nat.add_comm]

end LineCursor

end Markup

end MarkupOutline
