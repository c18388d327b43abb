import MarkupOutline.Proofs.Following
import MarkupOutline.Proofs.FullTree
import MarkupOutline.Proofs.ReadingTags

/-!
# Start tags in the source

A text is read with its line ends made uniform, and yet every start tag that is read stands in the
source (`exists_tagSource`): a `<`, the name, and the raw text up to the end of the tag (`Extent`).
What is read there has the attributes of the raw text, whatever its line ends
(`TagSource.exists_tokensOf_eq`).
-/

namespace MarkupOutline

namespace Text

/-! ## Back to the source -/

/-- A character other than a line feed stands in the source too. -/
theorem exists_of_withLineFeeds_eq {text cs rest : List Char} {y : Char} (hfeed : y ≠ '\n')
    (h : withLineFeeds text = cs ++ y :: rest) :
    ∃ before after, text = before ++ y :: after ∧ dropReturns before = cs ∧
      withLineFeeds after = rest := by
  induction text generalizing cs with
  | nil => simp at h
  | cons c text ih =>
    rw [withLineFeeds_cons] at h
    split at h
    · next hdropped =>
      obtain ⟨hc, hends⟩ := Bool.and_eq_true_iff.1 hdropped
      obtain ⟨before, after, rfl, hbefore, hafter⟩ := ih h
      refine ⟨c :: before, after, rfl, ?_, hafter⟩
      -- the return goes because a line feed follows it, and this is not `y`
      have hhead : before.head? = some '\n' := by
        cases before with
        | nil => simp [endsLine, hfeed] at hends
        | cons b before => simpa [endsLine] using hends
      rw [dropReturns, if_pos ⟨of_decide_eq_true hc, hhead⟩, hbefore]
    · next hkept =>
      cases cs with
      | nil =>
        rw [List.nil_append, List.cons.injEq] at h
        exact ⟨[], text, by rw [h.1]; rfl, rfl, h.2⟩
      | cons x cs =>
        rw [List.cons_append, List.cons.injEq] at h
        obtain ⟨before, after, rfl, hbefore, hafter⟩ := ih h.2
        refine ⟨c :: before, after, rfl, ?_, hafter⟩
        have hstays : ¬ (c = '\r' ∧ before.head? = some '\n') := by
          rintro ⟨rfl, hhead⟩
          obtain ⟨more, rfl⟩ := List.head?_eq_some_iff.1 hhead
          exact hkept rfl
        rw [dropReturns, if_neg hstays, hbefore, h.1]

/-! ## What line ends do not change -/

theorem withoutBlanks_dropReturns (cs : List Char) :
    withoutBlanks (dropReturns cs) = withoutBlanks cs := by
  induction cs with
  | nil => rfl
  | cons c cs ih =>
    rw [dropReturns]
    split
    · next h =>
      rw [ih, h.1]
      rfl
    · rw [withoutBlanks, withoutBlanks, List.filter_cons, List.filter_cons]
      rw [withoutBlanks, withoutBlanks] at ih
      rw [ih]

/-- Apart from a return at the end, only the returns in front of line feeds go. -/
theorem dropReturns_eq_or (cs : List Char) :
    dropReturns cs = withLineFeeds cs ∨ dropReturns cs = withLineFeeds cs ++ ['\r'] := by
  induction cs with
  | nil => exact .inl rfl
  | cons c cs ih =>
    cases cs with
    | nil =>
      by_cases hc : c = '\r'
      · exact .inr (by rw [hc]; rfl)
      · rw [dropReturns_cons_of_ne hc, withLineFeeds_cons_of_ne hc]
        exact .inl rfl
    | cons x cs =>
      have hends : (decide (c = '\r') && endsLine (x :: cs).head?) = true ↔
          c = '\r' ∧ (x :: cs).head? = some '\n' := by
        simp [endsLine]
      rw [dropReturns, withLineFeeds_cons]
      simp only [hends]
      split
      · exact ih
      · exact ih.imp (congrArg (c :: ·)) (congrArg (c :: ·))

theorem withoutBlanks_withLineFeeds (cs : List Char) :
    withoutBlanks (withLineFeeds cs) = withoutBlanks cs := by
  rcases dropReturns_eq_or cs with h | h
  · rw [← h, withoutBlanks_dropReturns]
  · rw [← withoutBlanks_dropReturns cs, h, withoutBlanks, withoutBlanks, List.filter_append]
    exact (List.append_nil _).symm

theorem getLast?_dropReturns (cs : List Char) : (dropReturns cs).getLast? = cs.getLast? := by
  induction cs with
  | nil => rfl
  | cons c cs ih =>
    rw [dropReturns]
    split
    · next h =>
      obtain ⟨rest, rfl⟩ := List.head?_eq_some_iff.1 h.2
      rw [ih, List.getLast?_cons_cons]
    · rw [List.getLast?_cons, List.getLast?_cons, ih]

/-- Characters of a class that has no line ends are found at the beginning as they are. -/
theorem takeWhile_withLineFeeds {p : Char → Bool} (hreturn : ¬ p '\r') (hfeed : ¬ p '\n')
    (cs : List Char) : (withLineFeeds cs).takeWhile p = cs.takeWhile p := by
  induction cs with
  | nil => rfl
  | cons c cs ih =>
    rw [withLineFeeds_cons]
    split
    · next hdropped =>
      obtain ⟨hc, hends⟩ := Bool.and_eq_true_iff.1 hdropped
      have hnone : cs.takeWhile p = [] := by
        cases cs with
        | nil => rfl
        | cons x cs =>
          have hx : x = '\n' := by simpa [endsLine] using hends
          rw [List.takeWhile_cons_of_neg (by rw [hx]; exact hfeed)]
      rw [ih, hnone, of_decide_eq_true hc, List.takeWhile_cons_of_neg hreturn]
    · rw [List.takeWhile_cons, List.takeWhile_cons, ih]

/-- A blank at the end leaves a space there, or nothing. -/
theorem collapse_concat_of_isBlank {b : Char} (hb : isBlank b) (cs : List Char) :
    collapse (cs ++ [b]) = collapse cs ∨ collapse (cs ++ [b]) = collapse cs ++ [' '] := by
  induction cs with
  | nil => exact .inr (collapse_cons_of_isBlank hb [])
  | cons c cs ih =>
    rw [List.cons_append]
    by_cases hc : isBlank c
    · rw [collapse_cons_of_isBlank hc, collapse_cons_of_isBlank hc]
      rcases ih with h | h
      · rw [h]
        exact .inl rfl
      · rw [h]
        cases collapse cs with
        | nil => exact .inl rfl
        | cons x xs =>
          right
          by_cases hx : x = ' '
          · simp [hx]
          · simp [hx]
    · rw [collapse_cons_of_not_isBlank hc, collapse_cons_of_not_isBlank hc]
      exact ih.imp (congrArg (c :: ·)) (congrArg (c :: ·))

end Text

/-- A name is read of the source as it is. -/
theorem Name.read?_withLineFeeds (cs : List Char) :
    read? (Text.withLineFeeds cs) = read? cs := by
  -- a name begins where some character that begins names stands in front
  have hbegins : ∀ ds : List Char, ds.head?.any isStart = !(ds.takeWhile isStart).isEmpty := by
    intro ds
    cases ds with
    | nil => rfl
    | cons d ds => cases hd : isStart d <;> simp [hd]
  unfold read?
  rw [hbegins, hbegins, Text.takeWhile_withLineFeeds (by decide) (by decide),
    Text.takeWhile_withLineFeeds (by decide) (by decide)]

namespace Attributes

/-- A blank at the end of a tag's text makes no difference. -/
theorem ofText_concat_of_isBlank {b : Char} (hb : Text.isBlank b) (cs : List Char) :
    ofText (cs ++ [b]) = ofText cs := by
  rw [ofText_eq, ofText_eq]
  rcases Text.collapse_concat_of_isBlank hb cs with h | h
  · rw [h]
  · rw [h, pairs_concat_blank rfl]

theorem ofText_dropReturns (cs : List Char) : ofText (Text.dropReturns cs) = ofText cs := by
  rw [ofText_eq, Text.collapse_dropReturns, ofText_eq]

/-- Attributes may be read of the source as it is. -/
theorem ofText_withLineFeeds (cs : List Char) : ofText (Text.withLineFeeds cs) = ofText cs := by
  rcases Text.dropReturns_eq_or cs with h | h
  · rw [← h, ofText_dropReturns]
  · rw [← ofText_dropReturns cs, h, ofText_concat_of_isBlank rfl]

end Attributes

/-- Two parts at the front of a text that end at the same place are the same. -/
theorem Position.eq_of_afterAll_eq {p : Position} {cs ds xs ys : List Char}
    (h : cs ++ xs = ds ++ ys) (hplace : p.afterAll cs = p.afterAll ds) : cs = ds := by
  have hlonger : ∀ cs es, p.afterAll (cs ++ es) = p.afterAll cs → es = [] := by
    intro cs es hsame
    by_contra hne
    have hlt := lt_afterAll (p.afterAll cs) hne
    rw [← afterAll_append, hsame] at hlt
    exact Position.not_lt.2 (Position.le_refl _) hlt
  rcases List.append_eq_append_iff.1 h with ⟨es, rfl, _⟩ | ⟨es, rfl, _⟩
  · rw [hlonger _ _ hplace.symm, List.append_nil]
  · rw [hlonger _ _ hplace, List.append_nil]

/-! ## Where a tag ends -/

namespace Markup

/-- The text behind the name of a start tag is the raw text that belongs to the tag, the mark that
ends the tag, and what stands behind it. A tag that nothing ends takes all of the text. -/
inductive Extent : List Char → List Char → List Char → Prop
  | closed {raw behind : List Char} (h : Balanced raw) : Extent raw ['/', '>'] behind
  | opened {raw behind : List Char} (h : Balanced raw) (hlast : raw.getLast? ≠ some '/') :
      Extent raw ['>'] behind
  | missing {raw : List Char}
      (h : ∀ front more, raw = front ++ '>' :: more → ¬ Balanced front) : Extent raw [] []

/-- Nothing ends a tag if some mark, or none, is open behind all of its text. -/
theorem missing_iff {raw : List Char} :
    (∀ front more, raw = front ++ '>' :: more → ¬ Balanced front) ↔
      ∃ quote, quoteBehind? none raw = some quote := by
  rw [← Option.ne_none_iff_exists', ne_eq, quoteBehind?_eq_none_iff]
  simp only [balanced_iff, not_exists, not_and]

/-- A tag with other raw text ends at the same mark, if the other text leaves the same open and no
slash comes to stand in front of the mark. -/
theorem Extent.congr {raw raw' close behind : List Char} (h : Extent raw close behind)
    (hquote : quoteBehind? none raw' = quoteBehind? none raw)
    (hlast : raw'.getLast? = some '/' → raw.getLast? = some '/') : Extent raw' close behind := by
  have hbalanced : Balanced raw → Balanced raw' := by
    rw [balanced_iff, balanced_iff, hquote]
    exact id
  cases h with
  | closed h => exact .closed (hbalanced h)
  | opened h hslash => exact .opened (hbalanced h) fun hslash' => hslash (hlast hslash')
  | missing h =>
    refine .missing (missing_iff.2 ?_)
    rw [hquote]
    exact missing_iff.1 h

/-- The slash in front of the end of a tag stands outside its values. -/
theorem balanced_concat_slash_iff {raw : List Char} : Balanced (raw ++ ['/']) ↔ Balanced raw := by
  rw [balanced_iff, balanced_iff, quoteBehind?_append]
  cases hquote : quoteBehind? none raw with
  | none => simp
  | some quote =>
    cases quote with
    | none => rfl
    | some q =>
      have hq := isQuote_of_quoteBehind?_eq_some (by simp) hquote q rfl
      have hslash : '/' ≠ q := by
        rintro rfl
        exact absurd hq (by decide)
      show quoteBehind? (some q) ['/'] = some none ↔ _
      rw [quoteBehind?_some_cons, if_neg hslash]
      rfl

/-- Whatever stands behind the name of a tag, the tag has an extent. -/
theorem exists_extent (tail : List Char) :
    ∃ raw close behind, tail = raw ++ (close ++ behind) ∧ Extent raw close behind := by
  cases hquote : quoteBehind? none tail with
  | some quote =>
    exact ⟨tail, [], [], by simp, .missing (missing_iff.2 ⟨quote, hquote⟩)⟩
  | none =>
    obtain ⟨front, more, rfl, hfront⟩ := quoteBehind?_eq_none_iff.1 hquote
    rw [← balanced_iff] at hfront
    by_cases hlast : front.getLast? = some '/'
    · obtain ⟨raw, rfl⟩ := List.getLast?_eq_some_iff.1 hlast
      refine ⟨raw, ['/', '>'], more, ?_, .closed (balanced_concat_slash_iff.1 hfront)⟩
      rw [List.append_assoc]
      rfl
    · exact ⟨front, ['>'], more, rfl, .opened hfront hlast⟩

/-! ## Reading a tag of the source -/

/-- A start tag that is read of a name and of raw text, with its `<` at a place. -/
structure StartTag.IsOf (tag : StartTag) (name raw close : List Char) (p : Position) : Prop where
  name_eq : tag.name = String.ofList name
  start_eq : tag.start = p
  ofText_eq : Attributes.ofText tag.attributeText = Attributes.ofText raw
  closed_iff : tag.ending = .closed ↔ close = ['/', '>']

theorem quoteBehind?_dropReturns (raw : List Char) :
    quoteBehind? none (Text.dropReturns raw) = quoteBehind? none raw :=
  quoteBehind?_congr (Text.withoutBlanks_dropReturns raw)

theorem quoteBehind?_withLineFeeds (raw : List Char) :
    quoteBehind? none (Text.withLineFeeds raw) = quoteBehind? none raw :=
  quoteBehind?_congr (Text.withoutBlanks_withLineFeeds raw)

variable {name raw close behind : List Char}

theorem Balanced.dropReturns (h : Balanced raw) : Balanced (Text.dropReturns raw) := by
  rw [balanced_iff, quoteBehind?_dropReturns, ← balanced_iff]
  exact h

/-- The text of a tag is read up to the end of its extent. -/
theorem Extent.readBody_eq (h : Extent raw close behind) (p : Position) :
    readBody ⟨p, raw ++ (close ++ behind)⟩ =
      ⟨raw ++ close.dropLast, !close.isEmpty, ⟨p.afterAll (raw ++ close), behind⟩⟩ := by
  cases h with
  | closed h =>
    have hread := readBody_of_balanced (balanced_concat_slash_iff.2 h) p behind
    rw [List.append_assoc, List.append_assoc] at hread
    exact hread
  | opened h hlast => exact (readBody_of_balanced h p behind).trans (by simp)
  | missing h =>
    obtain ⟨quote, hquote⟩ := missing_iff.1 h
    rw [List.append_nil, List.append_nil, readBody_of_quoteBehind? hquote]
    simp

/-- The tag of the text that is read up to the end of an extent has the attributes of the raw
text. -/
theorem Extent.isOf (h : Extent raw close behind) (name : List Char) (p q : Position)
    (next : Cursor) :
    StartTag.IsOf ⟨String.ofList name, p, q, raw ++ close.dropLast,
      tagEnd ⟨raw ++ close.dropLast, !close.isEmpty, next⟩⟩ name raw close p := by
  cases h with
  | closed h =>
    have hend : tagEnd ⟨raw ++ ['/'], true, next⟩ = .closed := by
      rw [tagEnd, if_pos rfl, List.getLast?_concat, if_pos rfl]
    exact ⟨rfl, rfl, by simp [StartTag.attributeText, hend], by simp [hend]⟩
  | opened h hlast =>
    have hend : tagEnd ⟨raw, true, next⟩ = .opened := by
      rw [tagEnd, if_pos rfl, if_neg hlast]
    exact ⟨rfl, rfl, by simp [StartTag.attributeText, hend], by simp [hend]⟩
  | missing h => exact ⟨rfl, rfl, by simp [StartTag.attributeText, tagEnd], by simp [tagEnd]⟩

/-- With its line ends made uniform a tag has an extent again, and the same attributes. -/
theorem Extent.exists_withLineFeeds (h : Extent raw close behind) :
    ∃ raw', Text.withLineFeeds (raw ++ (close ++ behind)) =
        raw' ++ (close ++ Text.withLineFeeds behind) ∧
      Extent raw' close (Text.withLineFeeds behind) ∧
      Attributes.ofText raw' = Attributes.ofText raw := by
  have hreturns := Attributes.ofText_dropReturns raw
  cases h with
  | closed h =>
    refine ⟨Text.dropReturns raw, ?_, .closed h.dropReturns, hreturns⟩
    rw [List.cons_append, Text.withLineFeeds_append_cons raw (by decide),
      Text.withLineFeeds_cons_of_ne (by decide), List.cons_append,
      Text.withLineFeeds_cons_of_ne (by decide)]
    rfl
  | opened h hlast =>
    refine ⟨Text.dropReturns raw, ?_, .opened h.dropReturns ?_, hreturns⟩
    · rw [List.cons_append, Text.withLineFeeds_append_cons raw (by decide),
        Text.withLineFeeds_cons_of_ne (by decide)]
      rfl
    · rw [Text.getLast?_dropReturns]
      exact hlast
  | missing h =>
    refine ⟨Text.withLineFeeds raw, by simp, .missing (missing_iff.2 ?_),
      Attributes.ofText_withLineFeeds raw⟩
    rw [quoteBehind?_withLineFeeds]
    exact missing_iff.1 h

/-- A name and raw text behind a `<` are read as one start tag, which stops in front of what stands
behind its extent. -/
theorem Extent.exists_read_eq (h : Extent raw close behind)
    (hname : Name.read? (name ++ (raw ++ (close ++ behind))) = some name) (p : Position) :
    ∃ tag passed, Token.read ⟨p, '<' :: Text.withLineFeeds (name ++ (raw ++ (close ++ behind)))⟩ =
        (.startTag tag, ⟨tag.stop, Text.withLineFeeds behind⟩) ∧
      tag.IsOf name raw close p ∧
      Text.withLineFeeds (name ++ (raw ++ (close ++ behind))) =
        passed ++ Text.withLineFeeds behind ∧
      tag.stop = p.afterAll ('<' :: passed) := by
  have hreturn : '\r' ∉ name := fun hmem =>
    absurd (Name.isPart_of_mem_read? hname _ hmem) (by decide)
  obtain ⟨raw', hfeeds, hextent, hattributes⟩ := h.exists_withLineFeeds
  rw [← Name.read?_withLineFeeds, Text.withLineFeeds_append_of_not_mem hreturn, hfeeds] at hname
  rw [Text.withLineFeeds_append_of_not_mem hreturn, hfeeds, Token.read_startTag hname]
  simp only [hextent.readBody_eq]
  refine ⟨_, name ++ (raw' ++ close), rfl, { hextent.isOf name p _ _ with ofText_eq := ?_ }, ?_, ?_⟩
  · exact (hextent.isOf name p _ _).ofText_eq.trans hattributes
  · simp only [List.append_assoc]
  · show ((p.after '<').afterAll name).afterAll (raw' ++ close) = _
    rw [← Position.afterAll_append]
    rfl

/-- The text behind a name has one extent. -/
theorem Extent.unique {raw' close' behind' : List Char} (h : Extent raw close behind)
    (h' : Extent raw' close' behind') (heq : raw ++ (close ++ behind) = raw' ++ (close' ++ behind')) :
    raw = raw' ∧ close = close' ∧ behind = behind' := by
  have hread := h.readBody_eq .origin
  rw [heq, h'.readBody_eq, TagBody.mk.injEq, Cursor.mk.injEq] at hread
  obtain ⟨htext, hended, -, rfl⟩ := hread
  -- a slash in front of the `>` belongs to the mark
  cases h with
  | closed h =>
    cases h' with
    | closed h' => exact ⟨(List.append_cancel_right htext).symm, rfl, rfl⟩
    | opened h' hlast' =>
      rw [show raw' = raw ++ ['/'] by simpa using htext] at hlast'
      exact absurd List.getLast?_concat hlast'
    | missing h' => simp at hended
  | opened h hlast =>
    cases h' with
    | closed h' =>
      rw [show raw = raw' ++ ['/'] by simpa using htext.symm] at hlast
      exact absurd List.getLast?_concat hlast
    | opened h' hlast' => exact ⟨(List.append_cancel_right htext).symm, rfl, rfl⟩
    | missing h' => simp at hended
  | missing h =>
    cases h' with
    | closed h' => simp at hended
    | opened h' hlast' => simp at hended
    | missing h' => exact ⟨(List.append_cancel_right htext).symm, rfl, rfl⟩

/-! ## The tags of a text -/

/-- A start tag in a text: what stands before its `<`, its name, its raw text, the mark that ends
it, and what stands behind it. -/
structure TagSource (text : String) where
  before : List Char
  name : List Char
  raw : List Char
  close : List Char
  behind : List Char
  toList_eq : text.toList = before ++ '<' :: (name ++ (raw ++ (close ++ behind)))
  read?_eq : Name.read? (name ++ (raw ++ (close ++ behind))) = some name
  extent : Extent raw close behind

namespace TagSource

variable {text : String}

/-- The place of the `<`. -/
def start (s : TagSource text) : Position :=
  Position.origin.afterAll s.before

/-- What is read of the text before the tag. -/
def tokensBefore (s : TagSource text) : List Token :=
  Token.readAll ⟨Position.origin, Text.dropReturns s.before⟩

theorem withLineFeeds_eq (s : TagSource text) : Text.withLineFeeds text.toList =
    Text.dropReturns s.before ++
      '<' :: Text.withLineFeeds (s.name ++ (s.raw ++ (s.close ++ s.behind))) := by
  rw [s.toList_eq, Text.withLineFeeds_append_cons s.before (by decide),
    Text.withLineFeeds_cons_of_ne (by decide)]

/-- Behind what is read of the tag the text goes on to its end. -/
theorem endOf_eq (s : TagSource text) {passed : List Char}
    (h : Text.withLineFeeds (s.name ++ (s.raw ++ (s.close ++ s.behind))) =
      passed ++ Text.withLineFeeds s.behind) :
    endOf text = (s.start.afterAll ('<' :: passed)).afterAll (Text.withLineFeeds s.behind) := by
  show Position.origin.afterAll (Text.withLineFeeds text.toList) = _
  rw [s.withLineFeeds_eq, h, Position.afterAll_append, Position.afterAll_dropReturns,
    ← List.cons_append, Position.afterAll_append]
  rfl

/-- At a place there is at most one start tag. -/
theorem eq_of_start_eq {s s' : TagSource text} (h : s.start = s'.start) : s = s' := by
  obtain ⟨before, name, raw, close, behind, htext, hname, hextent⟩ := s
  obtain ⟨before', name', raw', close', behind', htext', hname', hextent'⟩ := s'
  have hboth := htext.symm.trans htext'
  obtain rfl : before = before' := Position.eq_of_afterAll_eq hboth h
  rw [List.append_cancel_left_eq, List.cons.injEq] at hboth
  obtain rfl : name = name' := by
    rw [hboth.2, hname'] at hname
    exact (Option.some.inj hname).symm
  obtain ⟨rfl, rfl, rfl⟩ := hextent.unique hextent' (List.append_cancel_left hboth.2)
  rfl

/-- If all markup before a tag has ended, the tag is read between what stands before and behind
it. -/
theorem exists_tokensOf_eq (s : TagSource text) (hended : ∀ token ∈ s.tokensBefore, token.isEnded) :
    ∃ tag passed, tag.IsOf s.name s.raw s.close s.start ∧
      Text.withLineFeeds (s.name ++ (s.raw ++ (s.close ++ s.behind))) =
        passed ++ Text.withLineFeeds s.behind ∧
      tag.stop = s.start.afterAll ('<' :: passed) ∧
      tokensOf text =
        s.tokensBefore ++
          .startTag tag :: Token.readAll ⟨tag.stop, Text.withLineFeeds s.behind⟩ := by
  obtain ⟨tag, passed, hread, hof, hpassed, hstop⟩ := s.extent.exists_read_eq s.read?_eq s.start
  refine ⟨tag, passed, hof, hpassed, hstop, ?_⟩
  have hmark : ∀ cs, (Cursor.mk s.start ('<' :: cs)).seekMarkup = ⟨s.start, '<' :: cs⟩ := fun cs =>
    Token.seekMarkup_of_rest_eq_cons rfl
  have hplace : Position.origin.afterAll (Text.dropReturns s.before) = s.start :=
    Position.afterAll_dropReturns _ _
  have hsplit := Token.readAll_followed_of_isEnded parts_mark hended
    (Text.withLineFeeds (s.name ++ (s.raw ++ (s.close ++ s.behind))))
  rw [Cursor.atEnd, hplace, Token.readAll_eq_cons (c := ⟨s.start, _⟩) (by rw [hmark]; simp), hmark,
    hread] at hsplit
  rw [tokensOf, Cursor.ofText, s.withLineFeeds_eq]
  exact hsplit

end TagSource

/-- Every start tag of a text stands in its source, behind markup that has ended. -/
theorem exists_tagSource {text : String} {tag : StartTag} (h : .startTag tag ∈ tokensOf text) :
    ∃ s : TagSource text, tag.IsOf s.name s.raw s.close s.start ∧
      ∀ token ∈ s.tokensBefore, token.isEnded := by
  obtain ⟨front, rest, hsplit, htoken, hended⟩ := Token.exists_front_of_mem_readAll h
  obtain ⟨before, after, htext, rfl, rfl⟩ := Text.exists_of_withLineFeeds_eq (by decide) hsplit
  have hplace : (Cursor.ofText text.toList).position.afterAll (Text.dropReturns before) =
      Position.origin.afterAll before := Position.afterAll_dropReturns _ _
  rw [hplace] at htoken
  obtain ⟨name, hname, _, _⟩ := Token.exists_name_of_eq_read htoken
  have hname' : Name.read? after = some name := (Name.read?_withLineFeeds after).symm.trans hname
  obtain ⟨tail, rfl⟩ := Name.prefix_of_read? hname'
  obtain ⟨raw, close, behind, rfl, hextent⟩ := exists_extent tail
  obtain ⟨tag', passed, hread, hof, _⟩ :=
    hextent.exists_read_eq hname' (Position.origin.afterAll before)
  rw [hread, Token.startTag.injEq] at htoken
  exact ⟨⟨before, name, raw, close, behind, htext, hname', hextent⟩, htoken ▸ hof, hended⟩

end Markup

end MarkupOutline
