import MarkupOutline.Proofs.Aspects
import MarkupOutline.Proofs.FlatLines
import MarkupOutline.Proofs.JoinedLines
import MarkupOutline.Proofs.LinePlaces

/-!
# Reading lines as one text

A document is read on its lines as it is read in one text. A tag that is put together from its lines
shows the attributes of the tag that stands in the text, and closes itself alike (`alike_startTag`).
So the tokens are the same one by one in all that is taken in (`forall₂_alike_tokens`), and so is
what is read (`read_eq`).
-/

namespace MarkupOutline.Markup

namespace LineCursor

variable {c d : LineCursor} {n : Nat}

/-! ## The text of a tag -/

/-- The text that is put together from the lines begins as it stands there, and with blanks
collapsed it goes on as it stands there, apart from blanks at its end. -/
theorem exists_textTo_eq (h : Reaches c d) (hfree : c.FeedFree) {front rest : List Char}
    (hfront : ∀ x ∈ front, ¬ Text.isBlank x) (hleads : c.flat.Leads (front ++ rest) d.flat) :
    ∃ text trail, c.textTo (d.line - c.line) d.column = front ++ text ∧
      (∀ x ∈ trail, Text.isBlank x) ∧
      Text.collapse (text ++ trail) = Text.collapse rest := by
  obtain ⟨first, others, hpieces⟩ :=
    List.exists_cons_of_ne_nil (c.piecesTo_ne_nil (d.line - c.line) d.column)
  have htext : c.textTo (d.line - c.line) d.column =
      [' '].intercalate (first :: others.map Text.trim) := by
    rw [textTo, hpieces]
  have hraw : ['\n'].intercalate (first :: others) = front ++ rest := by
    have hboth := (h.leads hfree).rest_eq.symm.trans hleads.rest_eq
    rw [hpieces] at hboth
    exact List.append_cancel_right hboth
  -- the first line goes on behind `front`, since no line feed stands in it
  have hfeed : '\n' ∉ front := fun hmem => hfront _ hmem rfl
  obtain ⟨more, rfl⟩ : front <+: first := by
    rw [← List.isPrefixOf_iff_prefix, ← Text.isPrefixOf_append_behindLine hfeed,
      ← Text.intercalate_cons, hraw]
    simp
  obtain ⟨trail, htrail, hcollapse⟩ := Text.exists_collapse_intercalate_trim (front ++ more) others
  rw [hraw, Text.intercalate_append_cons, List.append_assoc,
    Text.collapse_append_of_not_isBlank hfront, Text.collapse_append_of_not_isBlank hfront]
    at hcollapse
  exact ⟨_, trail, htext.trans (Text.intercalate_append_cons _ _ _ _), htrail,
    List.append_cancel_left hcollapse⟩

/-! ## Start tags -/

theorem not_isBlank_of_mem_opening {name cs : List Char} (h : Name.read? cs = some name) :
    ∀ x ∈ '<' :: name, ¬ Text.isBlank x :=
  List.forall_mem_cons.2 ⟨by decide, fun x hx =>
    Name.not_isBlank_of_isPart (Name.isPart_of_mem_read? h x hx)⟩

/-- Tags that a `>` ends and whose texts are the same with blanks collapsed show the same attributes
and close themselves alike. -/
theorem alike_of_collapse_eq {body body' : List Char}
    (h : Text.collapse body = Text.collapse body') (name : String) (start stop : Position)
    (next next' : Cursor) :
    Token.Alike .all (.startTag ⟨name, start, stop, body, tagEnd ⟨body, true, next⟩⟩)
      (.startTag ⟨name, start, stop, body', tagEnd ⟨body', true, next'⟩⟩) := by
  have hsketch : ∀ {cs ds : List Char}, Text.collapse cs = Text.collapse ds →
      Sketch.ofTag name (Attributes.ofText cs) start stop =
        Sketch.ofTag name (Attributes.ofText ds) start stop := by
    intro cs ds heq
    rw [Attributes.ofText, heq, ← Attributes.ofText]
  have hslash : body.getLast? = some '/' ↔ body'.getLast? = some '/' := by
    rw [← Text.getLast?_collapse_eq_some_iff (by decide) body, h,
      Text.getLast?_collapse_eq_some_iff (by decide)]
  by_cases hlast : body'.getLast? = some '/'
  · obtain ⟨front', rfl⟩ := List.getLast?_eq_some_iff.1 hlast
    obtain ⟨front, rfl, hfront⟩ := Text.exists_concat_of_collapse_eq (by decide) h
    simp only [tagEnd, if_true, List.getLast?_concat]
    have hcut : Sketch.ofTag name (Attributes.ofText (front ++ ['/']).dropLast) start stop =
        Sketch.ofTag name (Attributes.ofText (front' ++ ['/']).dropLast) start stop := by
      rw [List.dropLast_concat, List.dropLast_concat]
      exact hsketch hfront
    exact .startTag hcut Iff.rfl
  · simp only [tagEnd, if_true, if_neg hlast, if_neg (mt hslash.1 hlast)]
    exact .startTag (hsketch h) Iff.rfl

/-- The slash in front of the `>` stands behind the name. -/
theorem endsIn_slash_iff {name : List Char} (hname : '/' ∉ name) (body : List Char) :
    Text.endsIn "/>".toList ('<' :: name ++ (body ++ ['>'])) ↔ body.getLast? = some '/' := by
  have hopening : ('<' :: name).getLast? ≠ some '/' := by
    intro hlast
    rcases List.mem_cons.1 (List.mem_of_getLast? hlast) with hmem | hmem
    · exact absurd hmem (by decide)
    · exact hname hmem
  have hlast : ('<' :: name ++ body).getLast? = some '/' ↔ body.getLast? = some '/' := by
    rw [List.getLast?_append]
    cases body.getLast? with
    | none => simpa using hopening
    | some y => rfl
  rw [Text.endsIn_iff, ← List.append_assoc, ← hlast, List.getLast?_eq_some_iff]
  constructor
  · rintro ⟨front, hfront⟩
    rw [show front ++ "/>".toList = (front ++ ['/']) ++ ['>'] by simp] at hfront
    exact ⟨front, (List.append_cancel_right hfront).symm⟩
  · rintro ⟨front, hfront⟩
    exact ⟨front, by rw [hfront]; simp⟩

/-- A tag that a `>` ends is cut out of the text that is put together from its lines. -/
theorem startTag_of_textTo_eq {name body : List Char} (hname : '/' ∉ name)
    (h : c.textTo (d.line - c.line) d.column = '<' :: name ++ (body ++ ['>'])) (next : Cursor) :
    c.startTag name true (d.line, d.column) =
      ⟨String.ofList name, c.position, d.position, body, tagEnd ⟨body, true, next⟩⟩ := by
  have hcut : ('<' :: name ++ (body ++ ['>'])).drop (name.length + 1) = body ++ ['>'] :=
    List.drop_left
  have hending : (if Text.endsIn "/>".toList ('<' :: name ++ (body ++ ['>'])) then TagEnd.closed
      else .opened) = tagEnd ⟨body, true, next⟩ := by
    rw [tagEnd, if_pos rfl]
    simp only [endsIn_slash_iff hname]
  simp only [startTag, h, hcut, if_true, hending, List.dropLast_concat]
  rfl

/-- A tag that a `>` ends is taken in alike, be it put together from its lines or read as it stands
in their text. -/
theorem alike_startTag {name body : List Char} (h : Reaches c d) (hfree : c.FeedFree)
    (hopening : ∀ x ∈ '<' :: name, ¬ Text.isBlank x) (hslash : '/' ∉ name)
    (hleads : c.flat.Leads ('<' :: name ++ (body ++ ['>'])) d.flat) (next : Cursor) :
    Token.Alike .all (.startTag (c.startTag name true (d.line, d.column)))
      (.startTag
        ⟨String.ofList name, c.position, d.position, body, tagEnd ⟨body, true, next⟩⟩) := by
  obtain ⟨text, trail, htext, htrail, hcollapse⟩ := exists_textTo_eq h hfree hopening hleads
  obtain ⟨inner, hinner, hbody⟩ := Text.exists_concat_of_collapse_eq (by decide) hcollapse
  have hlast : (text ++ trail).getLast? = some '>' := by rw [hinner, List.getLast?_concat]
  rw [Text.eq_nil_of_getLast?_append (by decide) htrail hlast, List.append_nil] at hinner
  rw [hinner] at htext
  rw [startTag_of_textTo_eq hslash htext next]
  exact alike_of_collapse_eq hbody _ _ _ _ _

/-- So is a tag that takes all of the text. -/
theorem alike_startTag_missing {name rest : List Char} (h : Reaches c d) (hfree : c.FeedFree)
    (hopening : ∀ x ∈ '<' :: name, ¬ Text.isBlank x) (hplace : (d.line, d.column) = c.lastPlace)
    (hleads : c.flat.Leads ('<' :: name ++ rest) d.flat) :
    Token.Alike .all (.startTag (c.startTag name false c.lastPlace))
      (.startTag ⟨String.ofList name, c.position, d.position, rest, .missing⟩) := by
  obtain ⟨text, trail, htext, htrail, hcollapse⟩ := exists_textTo_eq h hfree hopening hleads
  have hcut : ('<' :: name ++ text).drop (name.length + 1) = text := List.drop_left
  have hattributes : Attributes.ofText text = Attributes.ofText rest := by
    rw [← Attributes.ofText_append_of_isBlank htrail, Attributes.ofText, hcollapse,
      ← Attributes.ofText]
  have htag : c.startTag name false c.lastPlace =
      ⟨String.ofList name, c.position, d.position, text, .missing⟩ := by
    rw [← hplace, startTag]
    dsimp only
    rw [htext, hcut]
    rfl
  rw [htag]
  refine .startTag ?_ Iff.rfl
  show Sketch.ofTag _ (Attributes.ofText text) _ _ = Sketch.ofTag _ (Attributes.ofText rest) _ _
  rw [hattributes]

/-! ## Tokens -/

/-- A token read on the lines is that read of their text. If it ends, both go on at the same place;
if not, nothing is left of either. -/
structure Refines (r : Token × LineCursor) (s : Token × Cursor) : Prop where
  alike : Token.Alike .all r.1 s.1
  feedFree : r.2.FeedFree
  of_isEnded : s.1.isEnded = true → r.2.flat = s.2 ∧ r.2.left ≠ []
  of_not_isEnded : s.1.isEnded = false → r.2.left = [] ∧ s.2.rest = []

/-- A token that ends at a place on the lines is read if it is alike and the text goes on there. -/
theorem Refines.of_reaches {token token' : Token} (hfree : c.FeedFree) (h : Reaches c d)
    (halike : Token.Alike .all token token') (hended : token'.isEnded = true) :
    Refines (token, d) (token', d.flat) :=
  ⟨halike, h.feedFree hfree, fun _ => ⟨rfl, h.stop_left_ne_nil⟩,
    fun hnot => absurd hended (by rw [hnot]; exact Bool.false_ne_true)⟩

/-- A token that does not end takes all that is left. -/
theorem Refines.of_atEnd {token token' : Token} {e : Cursor}
    (halike : Token.Alike .all token token') (hended : token'.isEnded = false)
    (hrest : e.rest = []) : Refines (token, c.pastLast) (token', e) :=
  ⟨halike, fun _ h => absurd h List.not_mem_nil,
    fun htrue => absurd htrue (by rw [hended]; exact Bool.false_ne_true), fun _ => ⟨rfl, hrest⟩⟩

theorem Refines.readAll_eq {r : Token × LineCursor} {s : Token × Cursor} (h : Refines r s) :
    Token.readAll r.2.flat = Token.readAll s.2 := by
  cases hended : s.1.isEnded with
  | true => rw [(h.of_isEnded hended).1]
  | false =>
    obtain ⟨hleft, hrest⟩ := h.of_not_isEnded hended
    rw [Token.readAll_of_rest_eq_nil hrest,
      Token.readAll_of_rest_eq_nil (by rw [flat, hleft]; rfl)]

theorem left_ne_nil_of_begins {mark : List Char} (hne : mark ≠ []) (h : mark <+: c.here) :
    c.left ≠ [] := by
  refine left_ne_nil_of_here fun hnil => ?_
  rw [hnil, List.prefix_nil] at h
  exact hne h

theorem refines_readAside {marks : List Char × List Char} (hmem : marks ∈ Token.asideMarks)
    (hfree : c.FeedFree) (h : marks.1 <+: c.here) :
    Refines (readAside marks c) (Token.readAside marks c.flat) := by
  have hmarks : ∀ marks ∈ Token.asideMarks, marks.1 ≠ [] ∧ marks.2 ≠ [] ∧ '\n' ∉ marks.2 := by
    decide
  obtain ⟨hbegin, hend, hfeed⟩ := hmarks marks hmem
  unfold readAside Token.readAside
  rw [← flat_right hfree h.length_le]
  rcases past?_cases hfeed hend (hfree.right marks.1.length) with
    ⟨d, hd, hd', hreaches⟩ | ⟨hnone, hnone'⟩
  · rw [hd, hd']
    exact .of_reaches hfree (hreaches.of_right h.length_le) (.aside true) rfl
  · rw [hnone, hnone']
    exact .of_atEnd (.aside false) rfl rfl

theorem read?_flat (c : LineCursor) : Name.read? c.flat.rest = Name.read? c.here := by
  rw [rest_flat, Text.behindLine]
  split
  · rw [List.append_nil]
  · exact Name.read?_append_cons (by decide) _ _

/-- Blanks are passed over on the line where they are in the text. -/
theorem skipWhile_flat (hfree : c.FeedFree) :
    c.flat.skipWhile Text.isInlineBlank =
      (c.right (c.here.takeWhile Text.isBlank).length).flat := by
  have htake : c.flat.rest.takeWhile Text.isInlineBlank = c.here.takeWhile Text.isBlank := by
    rw [rest_flat, Text.takeWhile_append_behindLine (by decide),
      Text.takeWhile_isInlineBlank hfree.here]
  have hsplit : c.here.takeWhile Text.isBlank ++ c.flat.rest.dropWhile Text.isInlineBlank =
      c.flat.rest := by
    rw [← htake, List.takeWhile_append_dropWhile]
  rw [flat_right hfree (List.takeWhile_prefix _).length_le, Cursor.skipWhile, htake,
    ← Cursor.advance_append, hsplit]

/-- What comes next on the line comes next in the text, but for a line end. -/
theorem head?_flat {x : Char} (hx : x ≠ '\n') (c : LineCursor) :
    c.flat.rest.head? = some x ↔ c.here.head? = some x := by
  rw [rest_flat]
  exact Text.head?_append_behindLine hx _

theorem refines_readEndTag (hfree : c.FeedFree) (h : "</".toList <+: c.here) :
    Refines (readEndTag c) (Token.readEndTag c.flat) := by
  have hne : c.left ≠ [] := left_ne_nil_of_begins (by decide) h
  have htwo : 2 ≤ c.here.length := h.length_le
  have hstray : Refines (.stray, c.right 2) (.stray, (c.right 2).flat) :=
    .of_reaches hfree (.onLine hne htwo) .stray rfl
  unfold readEndTag Token.readEndTag
  rw [← flat_right hfree htwo, read?_flat]
  cases hname : Name.read? (c.right 2).here with
  | none => exact hstray
  | some name =>
    have hle : name.length ≤ (c.right 2).here.length := (Name.prefix_of_read? hname).length_le
    have hfree' := (hfree.right 2).right name.length
    dsimp only
    rw [← right_right c 2 name.length, ← flat_right (hfree.right 2) hle, skipWhile_flat hfree']
    have hblanks := (List.takeWhile_prefix (l := ((c.right 2).right name.length).here)
      Text.isBlank).length_le
    generalize (((c.right 2).right name.length).here.takeWhile Text.isBlank).length = n at hblanks ⊢
    by_cases hend : (((c.right 2).right name.length).right n).here.head? = some '>'
    · obtain ⟨rest, hrest⟩ := List.head?_eq_some_iff.1 hend
      have hone : 1 ≤ (((c.right 2).right name.length).right n).here.length := by
        rw [hrest]
        exact Nat.succ_le_succ (Nat.zero_le _)
      have hreaches : Reaches c ((((c.right 2).right name.length).right n).right 1) :=
        (((Reaches.onLine (left_ne_nil_of_here (by simp [hrest])) hone).of_right
          hblanks).of_right hle).of_right htwo
      rw [if_pos hend, if_pos ((head?_flat (by decide) _).2 hend),
        ← flat_right (hfree'.right n) hone]
      exact .of_reaches hfree hreaches (.endTag _ rfl) rfl
    · rw [if_neg hend, if_neg (mt (head?_flat (by decide) _).1 hend)]
      exact hstray

theorem refines_readStartTag (hfree : c.FeedFree) (h : ['<'] <+: c.here) :
    Refines (readStartTag c) (Token.readStartTag c.flat) := by
  have hne : c.left ≠ [] := left_ne_nil_of_begins (by decide) h
  have hone : 1 ≤ c.here.length := h.length_le
  unfold readStartTag Token.readStartTag
  rw [← flat_right hfree hone, read?_flat]
  cases hname : Name.read? (c.right 1).here with
  | none => exact .of_reaches hfree (.onLine hne hone) .stray rfl
  | some name =>
    have hprefix := Name.prefix_of_read? hname
    have hle := hprefix.length_le
    have hopening := not_isBlank_of_mem_opening hname
    have hslash : '/' ∉ name := fun hmem =>
      absurd (Name.isPart_of_mem_read? hname _ hmem) (by decide)
    have hfree' := (hfree.right 1).right name.length
    dsimp only
    rw [← right_right c 1 name.length, ← flat_right (hfree.right 1) hle]
    have hle' : 1 + name.length ≤ c.here.length := by
      rw [here_right, List.length_drop] at hle
      omega
    have hopens : c.flat.Leads ('<' :: name) ((c.right 1).right name.length).flat :=
      (leads_of_begins hfree h).trans (leads_of_begins (hfree.right 1) hprefix)
    rcases tagEnd?_cases hfree' with
      ⟨d, body, hd, hreaches, hbody, hends⟩ | ⟨hnone, quote, hquote⟩
    · have hreaches' := (hreaches.of_right hle).of_right hone
      rw [hd, readBody_of_leads hbody hends]
      have hended : tagEnd ⟨body, true, d.flat⟩ ≠ .missing := Token.tagEnd_ne_missing_iff.2 rfl
      exact .of_reaches hfree hreaches'
        (alike_startTag hreaches' hfree hopening hslash (hopens.trans hends) _)
        (decide_eq_true hended)
    · obtain ⟨d, hreaches, hplace, hrest⟩ := exists_reaches_lastPlace hne
      have hend : ((c.right 1).right name.length).flat.atEnd = d.flat := by
        rw [← (hreaches.leads hfree).eq_atEnd hrest]
        exact hopens.atEnd_eq
      have hread : readBody ((c.right 1).right name.length).flat =
          ⟨((c.right 1).right name.length).flat.rest, false, d.flat⟩ :=
        (readBody_of_quoteBehind? hquote _).trans (by rw [← hend]; rfl)
      rw [hnone, hread]
      refine .of_atEnd (alike_startTag_missing hreaches hfree hopening hplace ?_) rfl hrest
      rw [← hend]
      exact hopens.trans (.atEnd _)

/-- What is read at a `<` on the lines is what is read there in their text. -/
theorem refines_read (hfree : c.FeedFree) (h : ['<'] <+: c.here) :
    Refines (read c) (Token.read c.flat) := by
  have hbegins : ∀ mark : List Char, '\n' ∉ mark →
      mark.isPrefixOf c.flat.rest = mark.isPrefixOf c.here := by
    intro mark hmark
    rw [rest_flat, Text.isPrefixOf_append_behindLine hmark]
  have hfind : (Token.asideMarks.find? fun marks => marks.1.isPrefixOf c.flat.rest) =
      Token.asideMarks.find? fun marks => marks.1.isPrefixOf c.here := by
    have hmarks : ∀ marks ∈ Token.asideMarks, '\n' ∉ marks.1 := by decide
    exact List.find?_congr fun marks hmem => hbegins marks.1 (hmarks marks hmem)
  unfold read Token.read
  rw [hfind, hbegins _ (by decide)]
  cases hmarks : Token.asideMarks.find? fun marks => marks.1.isPrefixOf c.here with
  | some marks =>
    have hprefix := List.find?_some hmarks
    exact refines_readAside (List.mem_of_find?_eq_some hmarks) hfree
      (List.isPrefixOf_iff_prefix.1 hprefix)
  | none =>
    dsimp only
    split
    · next hend => exact refines_readEndTag hfree (List.isPrefixOf_iff_prefix.1 hend)
    · exact refines_readStartTag hfree h

/-! ## Turns -/

/-- A turn that finds a `<` reads what is read at the next `<` of the text. -/
theorem turn_cases (hfree : c.FeedFree) :
    (∃ token d, c.turn = (some token, d) ∧ '<' ∈ c.here ∧
      Refines (token, d) (Token.read c.flat.seekMarkup) ∧ c.flat.seekMarkup.rest ≠ []) ∨
    c.turn = (none, c.below) ∧ '<' ∉ c.here := by
  unfold turn
  cases hfind : Text.find? ['<'] c.here with
  | none => exact .inr ⟨rfl, Text.not_mem_of_find?_singleton_eq_none hfind⟩
  | some n =>
    obtain ⟨front, more, hhere, hplain, rfl⟩ := Text.exists_of_find?_singleton_eq_some hfind
    have hright : (c.right front.length).here = '<' :: more := by
      rw [here_right, hhere, List.drop_left]
    have hrest : (c.right front.length).flat.rest =
        '<' :: (more ++ Text.behindLine (c.right front.length).left.tail) := by
      rw [rest_flat, hright, List.cons_append]
    have hseek : c.flat.seekMarkup = (c.right front.length).flat := by
      rw [(leads_of_begins hfree ⟨_, hhere.symm⟩).seekMarkup_eq hplain]
      exact Token.seekMarkup_of_rest_eq_cons hrest
    have hmark : ['<'] <+: (c.right front.length).here := by
      rw [hright]
      exact ⟨more, rfl⟩
    refine .inl ⟨_, _, rfl, by rw [hhere]; simp, ?_, ?_⟩
    · rw [hseek]
      exact refines_read (hfree.right _) hmark
    · rw [hseek, hrest]
      exact List.cons_ne_nil _ _

theorem tokensOnto_append (before done : Array Token) (c : LineCursor) :
    tokensOnto (before ++ done) c = before ++ tokensOnto done c := by
  fun_induction tokensOnto done c with
  | case1 done c h => rw [tokensOnto, dif_pos h]
  | case2 done c h ih =>
    rw [tokensOnto, dif_neg h, ← ih]
    cases c.turn.1 with
    | none => rfl
    | some token => dsimp only; rw [Array.push_append]

theorem tokens_of_left_eq_nil (h : c.left = []) : c.tokens = [] := by
  rw [tokens, tokensOnto, dif_pos h]

/-- The token of the first turn comes in front of the others. -/
theorem tokens_eq (h : c.left ≠ []) : c.tokens = c.turn.1.toList ++ c.turn.2.tokens := by
  rw [tokens, tokensOnto, dif_neg h]
  cases c.turn.1 with
  | none => rfl
  | some token =>
    have moved := tokensOnto_append #[token] #[] c.turn.2
    rw [Array.append_empty] at moved
    show (tokensOnto #[token] c.turn.2).toList = _
    rw [moved, Array.toList_append]
    rfl

/-- Induction along the turns on some lines. -/
@[elab_as_elim]
theorem turn_induction {motive : LineCursor → Prop} (done : ∀ c, c.left = [] → motive c)
    (step : ∀ c, c.left ≠ [] → motive c.turn.2 → motive c) (c : LineCursor) : motive c := by
  by_cases h : c.left = []
  · exact done c h
  · exact step c h (turn_induction done step c.turn.2)
termination_by c.size
decreasing_by
  exact size_turn_lt h

/-- A line without a mark is passed over, and so is the last one. -/
theorem readAll_flat_below (hfree : c.FeedFree) (hplain : '<' ∉ c.here) :
    Token.readAll c.flat = Token.readAll c.below.flat := by
  by_cases htail : c.left.tail = []
  · have hrest : c.below.flat.rest = [] := by
      rw [flat, below, htail]
      rfl
    have hlast := rest_flat_of_tail_eq_nil htail
    rw [Token.readAll_eq_of_leads (.atEnd c.flat) (by rwa [hlast]),
      Token.readAll_of_rest_eq_nil rfl, Token.readAll_of_rest_eq_nil hrest]
  · refine Token.readAll_eq_of_leads (leads_below hfree htail) ?_
    rw [List.mem_append, not_or]
    exact ⟨hplain, by decide⟩

/-- The tokens of the lines are those of their text. -/
theorem forall₂_alike_tokens (c : LineCursor) (hfree : c.FeedFree) :
    List.Forall₂ (Token.Alike .all) c.tokens (Token.readAll c.flat) := by
  induction c using turn_induction with
  | done c h =>
    rw [tokens_of_left_eq_nil h, Token.readAll_of_rest_eq_nil (by rw [flat, h]; rfl)]
    exact .nil
  | step c h ih =>
    rw [tokens_eq h]
    rcases turn_cases hfree with ⟨token, d, hturn, -, hrefines, hmark⟩ | ⟨hturn, hplain⟩
    · rw [hturn] at ih ⊢
      rw [Token.readAll_eq_cons hmark, ← hrefines.readAll_eq]
      exact .cons hrefines.alike (ih hrefines.feedFree)
    · rw [hturn] at ih ⊢
      rw [readAll_flat_below hfree hplain]
      exact ih hfree.below

theorem feedFree_ofLines (cs : List Char) : (ofLines (Text.lines cs)).FeedFree :=
  fun _ => Text.feed_not_mem_of_mem_lines

/-- The text of the lines of a text is that text. -/
theorem flat_ofLines (cs : List Char) : (ofLines (Text.lines cs)).flat = Cursor.ofText cs := by
  rw [Cursor.ofText_eq_onLine, Cursor.onLine, Text.restAt_zero_zero]
  rfl

/-- A start tag that is put together from the lines of a text stands in that text. -/
theorem exists_startTag_mem_tokensOf {text : String} {tag : StartTag}
    (h : .startTag tag ∈ tokens (.ofLines (Text.lines text.toList))) :
    ∃ tag', .startTag tag' ∈ tokensOf text ∧ tag.sketch = tag'.sketch ∧
      (tag.ending = .closed ↔ tag'.ending = .closed) := by
  have htokens := forall₂_alike_tokens _ (feedFree_ofLines text.toList)
  rw [flat_ofLines] at htokens
  obtain ⟨i, hi, htag⟩ := List.mem_iff_getElem.1 h
  have halike := htokens.get hi (htokens.length_eq ▸ hi)
  have hmem : (Token.readAll (Cursor.ofText text.toList)).get ⟨i, htokens.length_eq ▸ hi⟩ ∈
      tokensOf text := List.get_mem _ _
  rw [List.get_eq_getElem, htag] at halike
  generalize (Token.readAll (Cursor.ofText text.toList)).get ⟨i, _⟩ = token at halike hmem
  cases halike with
  | @startTag _ tag' hsketch hclosed => exact ⟨tag', hmem, hsketch, hclosed⟩

end LineCursor

/-! ## Reading a document -/

/-- A document is read on its lines as it is read in one text. -/
theorem read_eq (strict : Bool) (text : String) :
    read strict text =
      assemble strict (Text.lineCount text.toList) (endOf text) .empty (tokensOf text) := by
  have htokens := LineCursor.forall₂_alike_tokens _ (LineCursor.feedFree_ofLines text.toList)
  rw [LineCursor.flat_ofLines] at htokens
  rw [read, Text.length_lines, ← Cursor.position_atEnd_ofText]
  exact assemble_congr htokens strict _ _ _

end MarkupOutline.Markup
