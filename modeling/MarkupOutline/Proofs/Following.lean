import Mathlib.Data.List.Find
import Mathlib.Data.List.TakeWhile
import MarkupOutline.Proofs.TagPlaces

/-!
# Texts that something follows

A text may be followed by a character that goes on with no name, no blanks and no mark, such as a
line end or a `<` (`Parts`). What has ended in front of it is read as if nothing followed, and what
has not ended takes the character with it (`continues_read`). So the tokens in front of such a
character are the same whatever comes behind it (`readAll_followed_of_isEnded`), and the tokens in
front of a `<` at which markup begins have all ended (`exists_front_of_mem_readAll`).
-/

namespace MarkupOutline

/-- A mark whose first character alone may be `y` does not begin in front of `y` and end behind
it. -/
theorem Text.isPrefixOf_cons_append_cons {mark : List Char} {y : Char} (hy : y ∉ mark.tail)
    (x : Char) (xs ys : List Char) :
    mark.isPrefixOf (x :: xs ++ y :: ys) = mark.isPrefixOf (x :: xs) := by
  cases mark with
  | nil => rfl
  | cons m mark =>
    have htail : mark.isPrefixOf (xs ++ y :: ys) = mark.isPrefixOf xs :=
      isPrefixOf_append_cons hy xs ys
    rw [List.cons_append, List.isPrefixOf_cons_cons, List.isPrefixOf_cons_cons, htail]

namespace Markup

/-- A character that goes on with no name and with no blanks inside a line, and with no mark of an
aside that has begun in front of it. -/
structure Parts (y : Char) : Prop where
  not_isPart : ¬ Name.isPart y
  not_isInlineBlank : ¬ Text.isInlineBlank y
  ne_end : y ≠ '>'
  ne_slash : y ≠ '/'
  not_mem_tail : ∀ marks ∈ Token.asideMarks, y ∉ marks.1.tail
  not_mem_end : ∀ marks ∈ Token.asideMarks, y ∉ marks.2

theorem parts_feed : Parts '\n' :=
  ⟨by decide, by decide, by decide, by decide, by decide, by decide⟩

theorem parts_mark : Parts '<' :=
  ⟨by decide, by decide, by decide, by decide, by decide, by decide⟩

/-! ## Movements -/

namespace Cursor

/-- The cursor on the same text when `y` and then `more` follow it. -/
def followed (c : Cursor) (y : Char) (more : List Char) : Cursor :=
  ⟨c.position, c.rest ++ y :: more⟩

variable {c d : Cursor} {y : Char} {more : List Char}

theorem advance_followed {n : Nat} (h : n ≤ c.rest.length) :
    (c.followed y more).advance n = (c.advance n).followed y more := by
  unfold advance followed
  rw [List.take_append_of_le_length h, List.drop_append_of_le_length h]

/-- Characters of a class that `y` is not in are passed over alike. -/
theorem skipWhile_followed {p : Char → Bool} (hy : ¬ p y) :
    (c.followed y more).skipWhile p = (c.skipWhile p).followed y more := by
  unfold skipWhile followed
  rw [Text.takeWhile_append_cons hy, Text.dropWhile_append_cons hy]

/-- The next mark stays the next. -/
theorem seekMarkup_followed (h : c.seekMarkup.rest ≠ []) :
    (c.followed y more).seekMarkup = c.seekMarkup.followed y more := by
  have hdrop : ¬ (c.rest.dropWhile (· ≠ '<')).isEmpty = true := by
    rw [List.isEmpty_iff]
    exact h
  have htake : ¬ (c.rest.takeWhile (· ≠ '<')).length = c.rest.length := by
    have hpos : 0 < (c.rest.dropWhile (· ≠ '<')).length := List.length_pos_iff.2 h
    have hsplit : c.rest.takeWhile (· ≠ '<') ++ c.rest.dropWhile (· ≠ '<') = c.rest :=
      List.takeWhile_append_dropWhile
    have hlength := congrArg List.length hsplit
    rw [List.length_append] at hlength
    omega
  unfold seekMarkup skipWhile followed
  rw [List.takeWhile_append, if_neg htake, List.dropWhile_append, if_neg hdrop]

/-- Without a mark all of the text is passed over. -/
theorem seekMarkup_followed_of_eq_nil (h : c.seekMarkup.rest = []) :
    (c.followed y more).seekMarkup = seekMarkup ⟨c.atEnd.position, y :: more⟩ := by
  have hplain : ∀ x ∈ c.rest, decide (x ≠ '<') = true := List.dropWhile_eq_nil_iff.1 h
  unfold seekMarkup skipWhile followed
  rw [List.takeWhile_append_of_pos hplain, List.dropWhile_append_of_pos hplain,
    Position.afterAll_append]
  rfl

/-- The first place behind a mark stays the first; else the mark comes behind `y`. -/
theorem pastFrom?_followed {mark : List Char} (hmark : mark ≠ []) (hy : y ∉ mark)
    (more : List Char) (p : Position) (cs : List Char) :
    match pastFrom? mark p cs with
    | some d => pastFrom? mark p (cs ++ y :: more) = some (d.followed y more)
    | none => ∀ d, pastFrom? mark p (cs ++ y :: more) = some d → d.rest.length ≤ more.length := by
  induction cs generalizing p with
  | nil =>
    intro d hd
    have hnot : ¬ mark.isPrefixOf (y :: more) = true := by
      rw [show y :: more = [] ++ y :: more from rfl, Text.isPrefixOf_append_cons hy]
      exact fun h => hmark (List.prefix_nil.1 (List.isPrefixOf_iff_prefix.1 h))
    rw [List.nil_append, pastFrom?, if_neg hnot] at hd
    exact length_rest_pastFrom?_le hd
  | cons x cs ih =>
    have hbegins := Text.isPrefixOf_append_cons hy (x :: cs) more
    have hpast : pastFrom? mark p (x :: cs) = if mark.isPrefixOf (x :: cs) then
        some (advance ⟨p, x :: cs⟩ mark.length) else pastFrom? mark (p.after x) cs := rfl
    have hpast' : pastFrom? mark p ((x :: cs) ++ y :: more) =
        if mark.isPrefixOf ((x :: cs) ++ y :: more) then
          some (advance (followed ⟨p, x :: cs⟩ y more) mark.length)
        else pastFrom? mark (p.after x) (cs ++ y :: more) := rfl
    rw [hpast, hpast', hbegins]
    cases hprefix : mark.isPrefixOf (x :: cs) with
    | false => exact ih (p.after x)
    | true =>
      have hle : mark.length ≤ (x :: cs).length :=
        (List.isPrefixOf_iff_prefix.1 hprefix).length_le
      rw [if_pos rfl, if_pos rfl, advance_followed hle]

end Cursor

/-! ## Tokens -/

namespace Token

/-- Whether a token comes to an end of its own, and not with the text. -/
def isEnded : Token → Bool
  | aside ended => ended
  | startTag tag => tag.ending ≠ .missing
  | endTag _ _ => true
  | stray => true

/-- What is read of a text is read again when `y` and `more` follow the text, if it has ended. If it
has not, it takes `y` with it. -/
structure Continues (read : Cursor → Token × Cursor) (c : Cursor) (y : Char) (more : List Char) :
    Prop where
  of_isEnded : (read c).1.isEnded = true →
    read (c.followed y more) = ((read c).1, (read c).2.followed y more)
  of_not_isEnded : (read c).1.isEnded = false →
    (read (c.followed y more)).2.rest.length ≤ more.length

variable {c : Cursor} {y : Char} (more : List Char)

theorem Continues.congr {f g : Cursor → Token × Cursor} {more : List Char}
    (h : Continues f c y more) (hread : g c = f c)
    (hread' : g (c.followed y more) = f (c.followed y more)) : Continues g c y more := by
  constructor
  · rw [hread, hread']
    exact h.of_isEnded
  · rw [hread, hread']
    exact h.of_not_isEnded

theorem continues_readAside {marks : List Char × List Char} (hy : Parts y)
    (hmem : marks ∈ asideMarks) (hbegins : marks.1 <+: c.rest) :
    Continues (readAside marks) c y more := by
  have hmarks : ∀ marks ∈ asideMarks, marks.2 ≠ [] := by decide
  have hpast := Cursor.pastFrom?_followed (hmarks marks hmem) (hy.not_mem_end marks hmem) more
    (c.advance marks.1.length).position (c.advance marks.1.length).rest
  have hadvance : (c.followed y more).advance marks.1.length =
      (c.advance marks.1.length).followed y more := Cursor.advance_followed hbegins.length_le
  rcases readAside_cases marks c with ⟨d, hd, hread⟩ | ⟨hd, hread⟩
  · rw [← Cursor.past?, hd] at hpast
    refine ⟨fun _ => ?_, fun hended => ?_⟩
    · have hpast' : ((c.followed y more).advance marks.1.length).past? marks.2 =
          some (d.followed y more) := by
        rw [hadvance]
        exact hpast
      rw [hread, readAside, hpast']
    · rw [hread] at hended
      exact absurd hended (by simp [isEnded])
  · rw [← Cursor.past?, hd] at hpast
    refine ⟨fun hended => ?_, fun _ => ?_⟩
    · rw [hread] at hended
      exact absurd hended (by simp [isEnded])
    · rcases readAside_cases marks (c.followed y more) with ⟨d, hd', hread'⟩ | ⟨_, hread'⟩
      · rw [hadvance] at hd'
        rw [hread']
        exact hpast d hd'
      · rw [hread']
        exact Nat.zero_le _

/-- A name and the blanks behind it end in front of `y`. -/
theorem behindEndName_followed {name : List Char} (hy : Parts y) (hbegins : "</".toList <+: c.rest)
    (hname : Name.read? (c.advance 2).rest = some name) :
    behindEndName (c.followed y more) name = (behindEndName c name).followed y more := by
  have hle : name.length ≤ (c.advance 2).rest.length := (Name.prefix_of_read? hname).length_le
  have htwo : 2 ≤ c.rest.length := hbegins.length_le
  unfold behindEndName
  rw [Cursor.advance_followed htwo, Cursor.advance_followed hle,
    Cursor.skipWhile_followed hy.not_isInlineBlank]

theorem continues_readEndTag (hy : Parts y) (hbegins : "</".toList <+: c.rest) :
    Continues readEndTag c y more := by
  have hadvance : (c.followed y more).advance 2 = (c.advance 2).followed y more :=
    Cursor.advance_followed hbegins.length_le
  have hname : Name.read? ((c.followed y more).advance 2).rest = Name.read? (c.advance 2).rest := by
    rw [hadvance]
    exact Name.read?_append_cons hy.not_isPart _ _
  have hclose : ∀ d : Cursor,
      (d.followed y more).rest.head? = some '>' ↔ d.rest.head? = some '>' := by
    intro d
    show (d.rest ++ y :: more).head? = some '>' ↔ _
    cases d.rest with
    | nil => simp [hy.ne_end]
    | cons x rest => rfl
  rcases readEndTag_cases c with ⟨name, hsome, hend, hread⟩ | ⟨hnone, hread⟩
  · have hbehind := behindEndName_followed more hy hbegins hsome
    have hpos : 1 ≤ (behindEndName c name).rest.length := by
      obtain ⟨rest, hrest⟩ := List.head?_eq_some_iff.1 hend
      rw [hrest, List.length_cons]
      omega
    rcases readEndTag_cases (c.followed y more) with ⟨name', hsome', hend', hread'⟩ |
      ⟨hnone', hread'⟩
    · have hsame : name' = name := by
        rw [hname, hsome] at hsome'
        exact (Option.some.inj hsome').symm
      refine ⟨fun _ => ?_, fun hended => ?_⟩
      · rw [hread', hread, hsame, hbehind, Cursor.advance_followed hpos]
        rfl
      · rw [hread] at hended
        exact absurd hended (by simp [isEnded])
    · refine absurd ?_ (hnone' name (hname.trans hsome))
      rw [hbehind, hclose]
      exact hend
  · rcases readEndTag_cases (c.followed y more) with ⟨name', hsome', hend', hread'⟩ |
      ⟨hnone', hread'⟩
    · rw [hname] at hsome'
      rw [behindEndName_followed more hy hbegins hsome', hclose] at hend'
      exact absurd hend' (hnone name' hsome')
    · refine ⟨fun _ => ?_, fun hended => ?_⟩
      · rw [hread', hread, hadvance]
      · rw [hread] at hended
        exact absurd hended (by simp [isEnded])

/-- The text of a tag stays if a `>` has ended it; if not, the tag takes `y` with it. -/
theorem readBodyFrom_followed (hy : y ≠ '>') (quote : Option Char) (read : List Char) (p : Position)
    (cs : List Char) :
    if (readBodyFrom quote read p cs).ended then
      readBodyFrom quote read p (cs ++ y :: more) =
        ⟨(readBodyFrom quote read p cs).text, true,
          (readBodyFrom quote read p cs).next.followed y more⟩
    else (readBodyFrom quote read p (cs ++ y :: more)).next.rest.length ≤ more.length := by
  induction cs generalizing quote read p with
  | nil =>
    show (readBodyFrom quote read p (y :: more)).next.rest.length ≤ more.length
    unfold readBodyFrom
    cases quote with
    | some q => exact length_rest_readBodyFrom_le more
    | none =>
      simp only [if_neg hy]
      exact length_rest_readBodyFrom_le more
  | cons x cs ih =>
    rw [List.cons_append]
    unfold readBodyFrom
    cases quote with
    | some q => exact ih _ _ _
    | none =>
      by_cases hx : x = '>'
      · simp only [hx]
        rfl
      · simp only [if_neg hx]
        exact ih _ _ _

theorem tagEnd_ne_missing_iff {body : TagBody} : tagEnd body ≠ .missing ↔ body.ended = true := by
  unfold tagEnd
  cases body.ended with
  | false => simp
  | true =>
    rw [if_pos rfl]
    split
    · simp
    · simp

theorem continues_readStartTag (hy : Parts y) (hne : c.rest ≠ []) :
    Continues readStartTag c y more := by
  have hpos : 1 ≤ c.rest.length := List.length_pos_iff.2 hne
  have hadvance : (c.followed y more).advance 1 = (c.advance 1).followed y more :=
    Cursor.advance_followed hpos
  have hname : Name.read? ((c.followed y more).advance 1).rest = Name.read? (c.advance 1).rest := by
    rw [hadvance]
    exact Name.read?_append_cons hy.not_isPart _ _
  rcases readStartTag_cases c with ⟨name, body, hsome, hbody, hread⟩ | ⟨hnone, hread⟩
  · rcases readStartTag_cases (c.followed y more) with ⟨name', body', hsome', hbody', hread'⟩ |
      ⟨hnone', _⟩
    · have hsame : name' = name := by
        rw [hname, hsome] at hsome'
        exact (Option.some.inj hsome').symm
      have hle : name.length ≤ (c.advance 1).rest.length :=
        (Name.prefix_of_read? hsome).length_le
      rw [hsame, hadvance, Cursor.advance_followed hle] at hbody'
      have hgoes := readBodyFrom_followed more hy.ne_end none []
        ((c.advance 1).advance name.length).position ((c.advance 1).advance name.length).rest
      rw [← readBody, ← hbody] at hgoes
      have hended : (readStartTag c).1.isEnded = body.ended := by
        rw [hread, isEnded, Bool.eq_iff_iff, decide_eq_true_iff]
        exact tagEnd_ne_missing_iff
      refine ⟨fun h => ?_, fun h => ?_⟩
      · rw [hended] at h
        rw [if_pos h] at hgoes
        have hbody' : body' = ⟨body.text, true, body.next.followed y more⟩ := hbody'.trans hgoes
        have htagEnd : tagEnd body' = tagEnd body := by
          rw [hbody', tagEnd, tagEnd, h]
        rw [hread', hread, htagEnd, hsame, hbody']
        rfl
      · rw [hended] at h
        rw [if_neg (by simp [h])] at hgoes
        rw [hread', hbody']
        exact hgoes
    · rw [hname, hsome] at hnone'
      exact absurd hnone' (by simp)
  · rcases readStartTag_cases (c.followed y more) with ⟨name', _, hsome', _, _⟩ | ⟨_, hread'⟩
    · rw [hname, hnone] at hsome'
      exact absurd hsome' (by simp)
    · refine ⟨fun _ => ?_, fun hended => ?_⟩
      · rw [hread', hread, hadvance]
      · rw [hread] at hended
        exact absurd hended (by simp [isEnded])

theorem continues_read (hy : Parts y) (hne : c.rest ≠ []) : Continues read c y more := by
  have hbegins : ∀ mark : List Char, y ∉ mark.tail →
      mark.isPrefixOf (c.followed y more).rest = mark.isPrefixOf c.rest := by
    intro mark hmark
    obtain ⟨x, xs, hrest⟩ := List.exists_cons_of_ne_nil hne
    show mark.isPrefixOf (c.rest ++ y :: more) = _
    rw [hrest]
    exact Text.isPrefixOf_cons_append_cons hmark x xs more
  have hfind : asideMarks.find? (fun marks => marks.1.isPrefixOf (c.followed y more).rest) =
      asideMarks.find? fun marks => marks.1.isPrefixOf c.rest :=
    List.find?_congr fun marks hmem => hbegins marks.1 (hy.not_mem_tail marks hmem)
  have hend : "</".toList.isPrefixOf (c.followed y more).rest = "</".toList.isPrefixOf c.rest :=
    hbegins _ (mt List.mem_singleton.1 hy.ne_slash)
  rcases read_cases c with ⟨marks, hfound, hread⟩ | ⟨hnone, ⟨hbegins, hread⟩ | ⟨hnot, hread⟩⟩
  · have hbegins : marks.1.isPrefixOf c.rest = true :=
      List.find?_some (p := fun m : List Char × List Char => m.1.isPrefixOf c.rest) hfound
    refine (continues_readAside more hy (List.mem_of_find?_eq_some hfound)
      (List.isPrefixOf_iff_prefix.1 hbegins)).congr hread ?_
    rw [read, hfind, hfound]
  · refine (continues_readEndTag more hy (List.isPrefixOf_iff_prefix.1 hbegins)).congr hread ?_
    rw [read, hfind, hnone, hend, if_pos hbegins]
  · refine (continues_readStartTag more hy hne).congr hread ?_
    rw [read, hfind, hnone, hend, if_neg (by rw [hnot]; exact Bool.false_ne_true)]

/-! ## Tokens that do not end -/

/-- A token that does not end is an aside, or a start tag that takes the rest of the text. -/
theorem Reads.isEnded_cases {c : Cursor} {r : Token × Cursor} (h : Reads c r) :
    r.1.isEnded = true ∨ r.1 = .aside false ∨
      ∃ tag, r.1 = .startTag tag ∧ tag.ending = .missing ∧ r.2.rest = [] := by
  cases h with
  | @aside ended cs d hleads =>
    cases ended with
    | true => exact .inl rfl
    | false => exact .inr (.inl rfl)
  | endTag hname hclose => exact .inl rfl
  | stray n => exact .inl rfl
  | @startTag name body hname hbody =>
    cases hended : body.ended with
    | true => exact .inl (decide_eq_true (tagEnd_ne_missing_iff.2 hended))
    | false =>
      obtain ⟨cs, _, _, hrest⟩ := Cursor.Leads.readBodyFrom none []
        ((c.advance 1).advance name.length).position ((c.advance 1).advance name.length).rest
      have hmissing : tagEnd body = .missing := by
        rw [tagEnd, hended]
        rfl
      rw [hbody] at hended
      refine .inr (.inr ⟨_, rfl, hmissing, ?_⟩)
      rw [hbody]
      exact hrest hended

/-- An aside that does not end takes the rest of the text. -/
theorem rest_read_of_aside {c : Cursor} (h : (read c).1 = .aside false) : (read c).2.rest = [] := by
  rcases read_cases c with ⟨marks, _, hread⟩ | ⟨_, ⟨_, hread⟩ | ⟨_, hread⟩⟩
  · rw [hread] at h ⊢
    rcases readAside_cases marks c with ⟨d, _, haside⟩ | ⟨_, haside⟩
    · simp [haside] at h
    · rw [haside]
      rfl
  · rcases readEndTag_cases c with ⟨name, _, _, htag⟩ | ⟨_, htag⟩ <;> simp [hread, htag] at h
  · rcases readStartTag_cases c with ⟨name, body, _, _, htag⟩ | ⟨_, htag⟩ <;> simp [hread, htag] at h

/-- A token that does not end leaves nothing of the text. -/
theorem rest_read_of_not_isEnded {c : Cursor} (h : (read c).1.isEnded = false) :
    (read c).2.rest = [] := by
  rcases (reads_read c).isEnded_cases with hended | haside | ⟨_, _, _, hrest⟩
  · rw [hended] at h
    simp at h
  · exact rest_read_of_aside haside
  · exact hrest

/-! ## All tokens -/

theorem seekMarkup_of_rest_eq_cons {rest : List Char} (h : c.rest = '<' :: rest) :
    c.seekMarkup = c := by
  unfold Cursor.seekMarkup Cursor.skipWhile
  rw [h, List.takeWhile_cons_of_neg (by decide), List.dropWhile_cons_of_neg (by decide), ← h]
  rfl

/-- The tokens of a text are those from its first mark on. -/
theorem readAll_seekMarkup (c : Cursor) : readAll c.seekMarkup = readAll c := by
  have hplain : '<' ∉ c.rest.takeWhile (· ≠ '<') := by
    intro hmem
    simpa using List.mem_takeWhile_imp hmem
  exact (readAll_eq_of_leads (Cursor.Leads.skipWhile (· ≠ '<') c) hplain).symm

/-- When all tokens of a text have ended, the tokens of what follows come behind them. -/
theorem readAll_followed_of_isEnded (hy : Parts y) {c : Cursor}
    (hended : ∀ token ∈ readAll c, token.isEnded) (more : List Char) :
    readAll (c.followed y more) = readAll c ++ readAll ⟨c.atEnd.position, y :: more⟩ := by
  induction c using readAll_induction with
  | nil c hmark =>
    rw [readAll_eq_nil hmark, List.nil_append, ← readAll_seekMarkup,
      Cursor.seekMarkup_followed_of_eq_nil hmark, readAll_seekMarkup]
  | cons c hmark ih =>
    have hseek : (c.followed y more).seekMarkup = c.seekMarkup.followed y more :=
      Cursor.seekMarkup_followed hmark
    have hmark' : (c.followed y more).seekMarkup.rest ≠ [] := by
      rw [hseek]
      exact List.append_ne_nil_of_right_ne_nil _ (List.cons_ne_nil _ _)
    rw [readAll_eq_cons hmark, List.forall_mem_cons] at hended
    obtain ⟨cs, hleads⟩ := (reads_read c.seekMarkup).leads
    have hatEnd : (read c.seekMarkup).2.atEnd = c.atEnd :=
      hleads.atEnd_eq.trans (Cursor.Leads.skipWhile (· ≠ '<') c).atEnd_eq
    have hread := (continues_read more hy hmark).of_isEnded hended.1
    rw [readAll_eq_cons hmark, readAll_eq_cons hmark', hseek, hread, ih hended.2, hatEnd,
      List.cons_append]

/-- What is read without taking `y` has ended in front of it, and is read there by itself. -/
theorem isEnded_of_rest_eq (hy : Parts y) (hne : c.rest ≠ []) {front more : List Char}
    (hrest : (read (c.followed y more)).2.rest = front ++ y :: more) :
    (read c).1.isEnded = true ∧ (read c).2 = ⟨(read (c.followed y more)).2.position, front⟩ := by
  have hcontinues := continues_read more hy hne
  cases hended : (read c).1.isEnded with
  | false =>
    have hle := hcontinues.of_not_isEnded hended
    rw [hrest, List.length_append, List.length_cons] at hle
    omega
  | true =>
    refine ⟨rfl, ?_⟩
    rw [hcontinues.of_isEnded hended] at hrest ⊢
    have hfront : (read c).2.rest = front := List.append_cancel_right hrest
    rw [← hfront]
    rfl

/-- When the first token leaves a mark be, and the tokens between have ended, then all tokens in
front of the mark have. -/
theorem forall_isEnded_of_read {text front rest : List Char} (hmark : c.seekMarkup.rest ≠ [])
    (hwhole : c.rest = text ++ '<' :: rest)
    (hrest : (read c.seekMarkup).2.rest = front ++ '<' :: rest)
    (hended : ∀ token ∈ readAll ⟨(read c.seekMarkup).2.position, front⟩, token.isEnded) :
    ∀ token ∈ readAll ⟨c.position, text⟩, token.isEnded := by
  have hfollowed : Cursor.followed ⟨c.position, text⟩ '<' rest = c := by
    show (⟨c.position, text ++ '<' :: rest⟩ : Cursor) = c
    rw [← hwhole]
  have hmark' : (Cursor.seekMarkup ⟨c.position, text⟩).rest ≠ [] := by
    -- else the first token would be read at the mark itself
    intro hnil
    have hseek : (Cursor.followed ⟨c.position, text⟩ '<' rest).seekMarkup.rest = '<' :: rest := by
      rw [Cursor.seekMarkup_followed_of_eq_nil hnil]
      exact congrArg Cursor.rest (seekMarkup_of_rest_eq_cons rfl)
    rw [hfollowed] at hseek
    have hlt := length_rest_read_lt hmark
    rw [hrest, hseek, List.length_append] at hlt
    exact Nat.not_lt.2 (Nat.le_add_left _ _) hlt
  have hseek : (Cursor.followed ⟨c.position, text⟩ '<' rest).seekMarkup = _ :=
    Cursor.seekMarkup_followed hmark'
  rw [hfollowed] at hseek
  rw [hseek] at hrest hended
  obtain ⟨hfirst, hnext⟩ := isEnded_of_rest_eq parts_mark hmark' hrest
  rw [readAll_eq_cons hmark', List.forall_mem_cons, hnext]
  exact ⟨hfirst, hended⟩

/-- A token of a text is read at a mark in front of which all tokens have ended. -/
theorem exists_front_of_mem_readAll {c : Cursor} {token : Token} (h : token ∈ readAll c) :
    ∃ front rest, c.rest = front ++ '<' :: rest ∧
      token = (read ⟨c.position.afterAll front, '<' :: rest⟩).1 ∧
      ∀ earlier ∈ readAll ⟨c.position, front⟩, earlier.isEnded := by
  induction c using readAll_induction with
  | nil c hmark =>
    rw [readAll_eq_nil hmark] at h
    simp at h
  | cons c hmark ih =>
    have hseek : c.Leads _ c.seekMarkup := Cursor.Leads.skipWhile (· ≠ '<') c
    rw [readAll_eq_cons hmark, List.mem_cons] at h
    rcases h with rfl | h
    · obtain ⟨rest, hrest⟩ := Cursor.exists_rest_seekMarkup hmark
      refine ⟨_, rest, hrest ▸ hseek.rest_eq, ?_, ?_⟩
      · rw [← hrest, ← hseek.position_eq]
      · have hplain : ∀ x ∈ c.rest.takeWhile (· ≠ '<'), decide (x ≠ '<') = true :=
          List.all_eq_true.1 List.all_takeWhile
        rw [readAll_eq_nil (List.dropWhile_eq_nil_iff.2 hplain)]
        simp
    · obtain ⟨cs, hleads⟩ := (reads_read c.seekMarkup).leads
      obtain ⟨front, rest, hsplit, htoken, hended⟩ := ih h
      have hpassed := hseek.trans hleads
      have hwhole : c.rest = (c.rest.takeWhile (· ≠ '<') ++ cs ++ front) ++ '<' :: rest := by
        rw [List.append_assoc, ← hsplit]
        exact hpassed.rest_eq
      refine ⟨_, rest, hwhole, ?_, ?_⟩
      · rw [htoken, hpassed.position_eq, ← Position.afterAll_append]
      · exact forall_isEnded_of_read hmark hwhole hsplit hended

end Token

end Markup

end MarkupOutline
