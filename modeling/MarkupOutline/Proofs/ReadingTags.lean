import MarkupOutline.Proofs.ContentReturns
import MarkupOutline.Proofs.Quoting

/-!
# Reading tags

A well-formed start tag is read as one token with the name, the text and the bounds it was printed
with (`TagText.read_print`), and so is an end tag (`TagText.read_printEnd`).
-/

namespace MarkupOutline.Markup

/-! ## The text of a tag -/

/-- Reading the text of a tag passes over `cs` and leaves no quotation mark open. -/
def Passes (cs : List Char) : Prop :=
  ∀ read p rest, readBodyFrom none read p (cs ++ rest) =
    readBodyFrom none (cs.reverse ++ read) (p.afterAll cs) rest

theorem Passes.append {cs ds : List Char} (hcs : Passes cs) (hds : Passes ds) :
    Passes (cs ++ ds) := by
  intro read p rest
  rw [List.append_assoc, hcs, hds, List.reverse_append, List.append_assoc,
    Position.afterAll_append]

theorem passes_of_balanced {cs : List Char} (h : Balanced cs) : Passes cs :=
  readBodyFrom_append (balanced_iff.1 h)

/-- Outside quotation marks all is passed over but the mark that ends the tag. -/
theorem passes_of_plain {cs : List Char} (h : ∀ c ∈ cs, c ≠ '>' ∧ ¬ Attributes.isQuote c) :
    Passes cs := by
  apply passes_of_balanced
  induction cs with
  | nil => exact .nil
  | cons c cs ih =>
    rw [List.forall_mem_cons] at h
    exact .plain h.1.1 h.1.2 (ih h.2)

theorem passes_singleton {c : Char} (hend : c ≠ '>') (hquote : ¬ Attributes.isQuote c) :
    Passes [c] :=
  passes_of_balanced (.plain hend hquote .nil)

/-- A value is passed over with the marks around it, whatever it contains. -/
theorem passes_quoted {q : Char} (hq : Attributes.isQuote q) {value : List Char}
    (hvalue : q ∉ value) : Passes (q :: (value ++ [q])) :=
  passes_of_balanced (.quoted hq hvalue .nil)

theorem plain_of_isPart {c : Char} (h : Name.isPart c) : c ≠ '>' ∧ ¬ Attributes.isQuote c := by
  constructor
  · rintro rfl
    exact absurd h (by decide)
  · intro hquote
    simp only [Attributes.isQuote, Bool.or_eq_true, beq_iff_eq] at hquote
    rcases hquote with rfl | rfl
    · exact absurd h (by decide)
    · exact absurd h (by decide)

theorem Blanks.passes (blanks : Blanks) : Passes blanks :=
  passes_of_plain fun c hc => plain_of_isBlank (blanks.2 c hc)

theorem NameText.passes_chars (n : NameText) : Passes n.chars :=
  passes_of_plain fun c hc => plain_of_isPart (n.isPart_of_mem_chars c hc)

theorem AttributeText.passes_print (a : AttributeText) : Passes a.print := by
  have hequals : Passes ['='] := passes_singleton (by decide) (by decide)
  have hvalue := passes_quoted a.isQuote_quote a.quote_not_mem_value
  have hbehind := hequals.append (a.afterEquals.passes.append hvalue)
  exact a.gap.passes.append (a.key.passes_chars.append (a.beforeEquals.passes.append hbehind))

namespace TagText

theorem passes_body (t : TagText) : Passes t.body := by
  refine Passes.append ?_ t.space.passes
  induction t.attributes with
  | nil => exact passes_of_plain (by simp)
  | cons a attributes ih =>
    rw [List.flatMap_cons]
    exact a.passes_print.append ih

theorem isBlank_head?_body (t : TagText) : ∀ y ∈ t.body.head?, Text.isBlank y := by
  intro y hy
  rw [body] at hy
  cases hattributes : t.attributes with
  | nil =>
    rw [hattributes] at hy
    exact t.space.2 y (List.mem_of_mem_head? hy)
  | cons a attributes =>
    rw [hattributes, List.flatMap_cons, AttributeText.print] at hy
    have hgap := a.gap.2
    have hne := a.gap_ne_nil
    cases hblanks : a.gap.1 with
    | nil => exact absurd hblanks hne
    | cons b blanks =>
      rw [hblanks] at hy hgap
      cases hy
      exact hgap y List.mem_cons_self

/-- What follows the name of a tag does not belong to it. -/
theorem not_isPart_head? (t : TagText) (closed : Bool) (rest : List Char) :
    ∀ y ∈ (t.body ++ (slash closed ++ '>' :: rest)).head?, ¬ Name.isPart y := by
  apply Name.not_isPart_head?_append t.isBlank_head?_body
  cases closed with
  | true => exact forall_head?_cons (by decide) _
  | false => exact forall_head?_cons (by decide) rest

theorem getLast?_body_ne_slash (t : TagText) : t.body.getLast? ≠ some '/' := by
  intro hlast
  have hspace : '/' ∉ t.space.1 := fun h => absurd (t.space.2 '/' h) (by decide)
  -- the last character is a blank, or else the quotation mark behind the last value
  rw [body, List.getLast?_append] at hlast
  cases hend : t.space.1.getLast? with
  | some y =>
    rw [hend, Option.some_or, Option.some.injEq] at hlast
    exact hspace (hlast ▸ List.mem_of_getLast? hend)
  | none =>
    rw [hend, Option.none_or] at hlast
    rcases List.eq_nil_or_concat t.attributes with hnil | ⟨front, a, hconcat⟩
    · rw [hnil] at hlast
      exact absurd hlast (by simp)
    · have hquote := a.isQuote_quote
      have hprint : a.print.getLast? = some a.quote := by
        have hassoc : a.print = (a.gap ++ (a.key.chars ++ (a.beforeEquals ++ '=' ::
            (a.afterEquals ++ a.quote :: a.value)))) ++ [a.quote] := by
          simp [AttributeText.print]
        rw [hassoc, List.getLast?_concat]
      rw [hconcat, List.concat_eq_append, List.flatMap_append, List.flatMap_singleton,
        List.getLast?_append, hprint, Option.some_or, Option.some.injEq] at hlast
      rw [hlast] at hquote
      exact absurd hquote (by decide)

theorem passes_slash (closed : Bool) : Passes (slash closed) := by
  cases closed with
  | true => exact passes_singleton (by decide) (by decide)
  | false => exact fun _ _ _ => rfl

/-- The text of a tag is read up to the mark that ends the tag. -/
theorem readBody_append (t : TagText) (closed : Bool) (p : Position) (rest : List Char) :
    readBody ⟨p, t.body ++ (slash closed ++ '>' :: rest)⟩ =
      ⟨t.body ++ slash closed, true, ⟨p.afterAll (t.body ++ (slash closed ++ ['>'])), rest⟩⟩ := by
  have hpasses := (t.passes_body.append (passes_slash closed)) [] p ('>' :: rest)
  rw [List.append_assoc] at hpasses
  rw [readBody, hpasses, readBodyFrom]
  simp [Position.afterAll]

/-- A tag is closed by itself exactly if it was printed so. -/
theorem tagEnd_body (t : TagText) (closed : Bool) (next : Cursor) :
    tagEnd ⟨t.body ++ slash closed, true, next⟩ = if closed then .closed else .opened := by
  cases closed with
  | true => simp [tagEnd, slash]
  | false =>
    have hlast := t.getLast?_body_ne_slash
    simp [tagEnd, slash, hlast]

end TagText

/-! ## Names -/

/-- What is read as a name is one. -/
theorem NameText.exists_of_read? {cs name : List Char} (h : Name.read? cs = some name) :
    ∃ n : NameText, n.chars = name := by
  unfold Name.read? at h
  split at h
  · next hhead =>
    cases cs with
    | nil => simp at hhead
    | cons c rest =>
      have hstart : Name.isStart c := hhead
      rw [List.takeWhile_cons_of_pos (Name.isPart_of_isStart hstart), Option.some.injEq] at h
      exact ⟨⟨c, rest.takeWhile Name.isPart, hstart, List.all_eq_true.1 List.all_takeWhile⟩, h⟩
  · simp at h

/-- A name is read whole. -/
theorem NameText.read?_append (n : NameText) {rest : List Char}
    (hrest : ∀ y ∈ rest.head?, ¬ Name.isPart y) :
    Name.read? (n.chars ++ rest) = some n.chars := by
  have hfirst : (n.chars ++ rest).head?.any Name.isStart := n.isStart_first
  rw [Name.read?, if_pos hfirst, takeWhile_append_of_stop n.isPart_of_mem_chars hrest]

/-- What begins with a mark and a character other than those of an aside is none. -/
theorem find?_asideMarks_eq_none {c : Char} (hbang : c ≠ '!') (hquestion : c ≠ '?')
    (cs : List Char) :
    Token.asideMarks.find? (fun marks => marks.1.isPrefixOf ('<' :: c :: cs)) = none := by
  have hsecond : ∀ marks ∈ Token.asideMarks, marks.1[1]? = some '!' ∨ marks.1[1]? = some '?' := by
    decide
  rw [List.find?_eq_none]
  intro marks hmarks hbegins
  rw [List.isPrefixOf_iff_prefix, List.prefix_iff_getElem?] at hbegins
  rcases hsecond marks hmarks with hmark | hmark
  · obtain ⟨hlt, hmark⟩ := List.getElem?_eq_some_iff.1 hmark
    have hc : some c = some marks.1[1] := hbegins 1 hlt
    rw [hmark, Option.some.injEq] at hc
    exact hbang hc
  · obtain ⟨hlt, hmark⟩ := List.getElem?_eq_some_iff.1 hmark
    have hc : some c = some marks.1[1] := hbegins 1 hlt
    rw [hmark, Option.some.injEq] at hc
    exact hquestion hc

namespace Token

theorem read_eq_readStartTag {c : Char} (hbang : c ≠ '!') (hquestion : c ≠ '?') (hslash : c ≠ '/')
    (p : Position) (cs : List Char) :
    read ⟨p, '<' :: c :: cs⟩ = readStartTag ⟨p, '<' :: c :: cs⟩ := by
  have hfind := find?_asideMarks_eq_none hbang hquestion cs
  have hend : "</".toList.isPrefixOf ('<' :: c :: cs) = false := by
    show ('/' == c && true) = false
    simp [Ne.symm hslash]
  simp only [read, hfind, hend, Bool.false_eq_true, if_false]

/-- A name behind a mark begins a start tag. -/
theorem read_startTag {name cs : List Char} (h : Name.read? (name ++ cs) = some name)
    (p : Position) :
    read ⟨p, '<' :: (name ++ cs)⟩ =
      let body := readBody ⟨(p.after '<').afterAll name, cs⟩
      (startTag ⟨String.ofList name, p, body.next.position, body.text, tagEnd body⟩, body.next) := by
  have hadvance : Cursor.advance ⟨p, '<' :: (name ++ cs)⟩ 1 = ⟨p.after '<', name ++ cs⟩ := rfl
  obtain ⟨n, rfl⟩ := NameText.exists_of_read? h
  have hread : read ⟨p, '<' :: (n.chars ++ cs)⟩ = readStartTag ⟨p, '<' :: (n.chars ++ cs)⟩ :=
    read_eq_readStartTag (n.first_ne (by decide)) (n.first_ne (by decide))
      (n.first_ne (by decide)) p _
  rw [hread, readStartTag]
  simp only [hadvance, h, Cursor.advance_append]

theorem read_eq_readEndTag (p : Position) (cs : List Char) :
    read ⟨p, '<' :: '/' :: cs⟩ = readEndTag ⟨p, '<' :: '/' :: cs⟩ := by
  have hfind := find?_asideMarks_eq_none (show '/' ≠ '!' by decide) (by decide) cs
  have hend : "</".toList.isPrefixOf ('<' :: '/' :: cs) = true := rfl
  simp only [read, hfind, hend, if_true]

end Token

namespace TagText

/-- The start tag that is read of a printed tag. -/
def startTag (t : TagText) (closed : Bool) (p : Position) : StartTag where
  name := t.name.name
  start := p
  stop := p.afterAll (t.print closed)
  body := t.body ++ slash closed
  ending := if closed then .closed else .opened

/-- A start tag stands for what it was printed of. -/
theorem sketch_startTag (t : TagText) (closed : Bool) (p : Position) :
    (t.startTag closed p).sketch = t.sketch p (p.afterAll (t.print closed)) := by
  have htext : (t.startTag closed p).attributeText = t.body := by
    cases closed with
    | true => exact List.dropLast_concat
    | false => exact List.append_nil t.body
  rw [StartTag.sketch, htext, t.ofText_body]
  rfl

/-- The returns in front of line feeds make no difference to what a start tag stands for. -/
theorem sketch_startTag_dropReturns (t : TagText) (closed : Bool) (p : Position) :
    (t.dropReturns.startTag closed p).sketch = t.sketch p (p.afterAll (t.print closed)) := by
  rw [sketch_startTag, sketch_dropReturns, print_dropReturns, Position.afterAll_dropReturns]

/-- A start tag is read as one token. -/
theorem read_print (t : TagText) (closed : Bool) (p : Position) (rest : List Char) :
    Token.read ⟨p, t.print closed ++ rest⟩ =
      (.startTag (t.startTag closed p), ⟨p.afterAll (t.print closed), rest⟩) := by
  have hassoc : t.print closed ++ rest =
      '<' :: (t.name.chars ++ (t.body ++ (slash closed ++ '>' :: rest))) := by
    simp [print]
  have hname := t.name.read?_append (t.not_isPart_head? closed rest)
  have hstop : ((p.after '<').afterAll t.name.chars).afterAll
      (t.body ++ (slash closed ++ ['>'])) = p.afterAll (t.print closed) := by
    rw [← Position.afterAll_append]
    rfl
  rw [hassoc, Token.read_startTag hname]
  simp only [readBody_append, tagEnd_body, hstop]
  rfl

/-- An end tag is read as one token. -/
theorem read_printEnd (t : TagText) (space : InlineBlanks) (p : Position) (rest : List Char) :
    Token.read ⟨p, t.printEnd space ++ rest⟩ =
      (.endTag t.name.name (p.afterAll (t.printEnd space)),
        ⟨p.afterAll (t.printEnd space), rest⟩) := by
  have hassoc : t.printEnd space ++ rest =
      '<' :: '/' :: (t.name.chars ++ (space ++ '>' :: rest)) := by
    simp [printEnd]
  have hblank : ∀ x ∈ space.1.head?, Text.isBlank x := by
    intro x hx
    exact Text.isBlank_of_isInlineBlank (space.2 x (List.mem_of_mem_head? hx))
  have hhead : ∀ y ∈ (space.1 ++ '>' :: rest).head?, ¬ Name.isPart y :=
    Name.not_isPart_head?_append hblank (forall_head?_cons (by decide) rest)
  have hname := t.name.read?_append hhead
  have hadvance : Cursor.advance ⟨p, '<' :: '/' :: (t.name.chars ++ (space ++ '>' :: rest))⟩ 2 =
      ⟨(p.after '<').after '/', t.name.chars ++ (space ++ '>' :: rest)⟩ := rfl
  have hskip : ∀ q : Position, Cursor.skipWhile Text.isInlineBlank ⟨q, space ++ '>' :: rest⟩ =
      ⟨q.afterAll space, '>' :: rest⟩ := by
    intro q
    have hstop : ∀ y ∈ ('>' :: rest).head?, ¬ Text.isInlineBlank y :=
      forall_head?_cons (by decide) rest
    rw [Cursor.skipWhile, takeWhile_append_of_stop space.2 hstop,
      dropWhile_append_of_stop space.2 hstop]
  rw [hassoc, Token.read_eq_readEndTag, Token.readEndTag]
  simp only [hadvance, hname, Cursor.advance_append, hskip]
  rw [List.head?_cons, if_pos rfl]
  have hclose : ∀ q : Position, Cursor.advance ⟨q, '>' :: rest⟩ 1 = ⟨q.after '>', rest⟩ := by
    intro q
    rfl
  have hstop : ((((p.after '<').after '/').afterAll t.name.chars).afterAll space).after '>' =
      p.afterAll (t.printEnd space) := by
    show _ = ((p.after '<').after '/').afterAll (t.name.chars ++ (space ++ ['>']))
    rw [Position.afterAll_append, Position.afterAll_append]
    rfl
  rw [hclose, hstop]
  rfl

end TagText

end MarkupOutline.Markup
