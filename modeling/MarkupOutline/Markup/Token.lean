import MarkupOutline.Attributes.Text
import MarkupOutline.Markup.Cursor
import MarkupOutline.Name

/-!
# Tokens

Every `<` that is met begins exactly one token: an aside (a comment, a character data section or a
declaration), an end tag, a start tag, or a stray mark that begins nothing. Nothing is malformed:
an aside or a start tag that does not end runs to the end of the text.

A document is read on its lines. Here tokens are read from one text in which line feeds stand between
the lines, as most theorems look at it; both ways read the same.

Reading a token always leaves less text (`length_rest_read_lt`), so a text has finitely many.
-/

namespace MarkupOutline.Markup

/-! ## Start tags -/

/-- How a start tag ends. -/
inductive TagEnd where
  /-- By `/>`: the element has no content. -/
  | closed
  /-- By `>`: content follows. -/
  | opened
  /-- Not at all: the tag takes the rest of the text. -/
  | missing
deriving DecidableEq, Repr

/-- A start tag: its name, the place of its `<`, the place behind its `>`, and the text between
its name and that `>`. -/
structure StartTag where
  name : String
  start : Position
  stop : Position
  body : List Char
  ending : TagEnd
deriving DecidableEq, Repr

/-- The text of a tag that holds its attributes: all but the slash that closes it. -/
def StartTag.attributeText (tag : StartTag) : List Char :=
  match tag.ending with
  | .closed => tag.body.dropLast
  | _ => tag.body

/-- The text of a tag behind its name, whether a `>` ends it, and what follows. -/
structure TagBody where
  text : List Char
  ended : Bool
  next : Cursor

/-- Reads the text of a tag up to the first `>` outside quotation marks. `quote` is the mark that
is open, `read` is what has been read, last character first. -/
def readBodyFrom (quote : Option Char) (read : List Char) (p : Position) : List Char → TagBody
  | [] => ⟨read.reverse, false, ⟨p, []⟩⟩
  | c :: rest =>
    match quote with
    | some q => readBodyFrom (if c = q then none else some q) (c :: read) (p.after c) rest
    | none =>
      if c = '>' then ⟨read.reverse, true, ⟨p.after c, rest⟩⟩
      else readBodyFrom (if Attributes.isQuote c then some c else none) (c :: read) (p.after c) rest

/-- Reads the text of a tag behind its name. -/
def readBody (c : Cursor) : TagBody :=
  readBodyFrom none [] c.position c.rest

/-- How a tag with the given text ends. -/
def tagEnd (body : TagBody) : TagEnd :=
  if body.ended then (if body.text.getLast? = some '/' then .closed else .opened) else .missing

/-! ## Tokens -/

/-- What begins at a `<`. -/
inductive Token where
  /-- A comment, character data section or declaration, and whether it ends. -/
  | aside (ended : Bool)
  /-- An end tag and the place behind it. -/
  | endTag (name : String) (stop : Position)
  | startTag (tag : StartTag)
  /-- A mark that begins nothing. -/
  | stray
deriving DecidableEq, Repr

namespace Token

/-- The marks that begin and end an aside, in the order in which they are tried. -/
def asideMarks : List (List Char × List Char) :=
  [("<!--".toList, "-->".toList), ("<![CDATA[".toList, "]]>".toList),
   ("<?".toList, ">".toList), ("<!".toList, ">".toList)]

/-- Reads an aside that begins and ends with the given marks. -/
def readAside (marks : List Char × List Char) (c : Cursor) : Token × Cursor :=
  match (c.advance marks.1.length).past? marks.2 with
  | some next => (aside true, next)
  | none => (aside false, c.atEnd)

/-- Reads what `</` begins: an end tag is its name, blanks on the same line, and `>`. -/
def readEndTag (c : Cursor) : Token × Cursor :=
  match Name.read? (c.advance 2).rest with
  | some name =>
    let ending := ((c.advance 2).advance name.length).skipWhile Text.isInlineBlank
    if ending.rest.head? = some '>' then
      (endTag (String.ofList name) (ending.advance 1).position, ending.advance 1)
    -- what is no end tag takes its two marks alone
    else (stray, c.advance 2)
  | none => (stray, c.advance 2)

/-- Reads what any other `<` begins: a start tag if a name follows at once. -/
def readStartTag (c : Cursor) : Token × Cursor :=
  match Name.read? (c.advance 1).rest with
  | some name =>
    let body := readBody ((c.advance 1).advance name.length)
    (startTag ⟨String.ofList name, c.position, body.next.position, body.text, tagEnd body⟩,
      body.next)
  | none => (stray, c.advance 1)

/-- Reads the token that begins at a cursor. -/
def read (c : Cursor) : Token × Cursor :=
  match asideMarks.find? fun marks => marks.1.isPrefixOf c.rest with
  | some marks => readAside marks c
  | none => if "</".toList.isPrefixOf c.rest then readEndTag c else readStartTag c

/-! ## What is read -/

theorem readAside_cases (marks : List Char × List Char) (c : Cursor) :
    (∃ next, (c.advance marks.1.length).past? marks.2 = some next ∧
      readAside marks c = (aside true, next)) ∨
    (c.advance marks.1.length).past? marks.2 = none ∧
      readAside marks c = (aside false, c.atEnd) := by
  unfold readAside
  cases (c.advance marks.1.length).past? marks.2 with
  | none => exact .inr ⟨rfl, rfl⟩
  | some next => exact .inl ⟨next, rfl, rfl⟩

/-- The place behind `</`, a name and the blanks behind it. -/
def behindEndName (c : Cursor) (name : List Char) : Cursor :=
  ((c.advance 2).advance name.length).skipWhile Text.isInlineBlank

theorem readEndTag_cases (c : Cursor) :
    (∃ name, Name.read? (c.advance 2).rest = some name ∧
      (behindEndName c name).rest.head? = some '>' ∧
      readEndTag c = (endTag (String.ofList name) ((behindEndName c name).advance 1).position,
        (behindEndName c name).advance 1)) ∨
    (∀ name, Name.read? (c.advance 2).rest = some name →
      (behindEndName c name).rest.head? ≠ some '>') ∧ readEndTag c = (stray, c.advance 2) := by
  unfold readEndTag
  cases Name.read? (c.advance 2).rest with
  | none => exact .inr ⟨by simp, rfl⟩
  | some name =>
    by_cases hclose : (behindEndName c name).rest.head? = some '>'
    · exact .inl ⟨name, rfl, hclose, if_pos hclose⟩
    · exact .inr ⟨fun other hother => Option.some.inj hother ▸ hclose, if_neg hclose⟩

theorem readStartTag_cases (c : Cursor) :
    (∃ name body, Name.read? (c.advance 1).rest = some name ∧
      body = readBody ((c.advance 1).advance name.length) ∧
      readStartTag c = (startTag ⟨String.ofList name, c.position, body.next.position, body.text,
        tagEnd body⟩, body.next)) ∨
    Name.read? (c.advance 1).rest = none ∧ readStartTag c = (stray, c.advance 1) := by
  unfold readStartTag
  cases Name.read? (c.advance 1).rest with
  | none => exact .inr ⟨rfl, rfl⟩
  | some name => exact .inl ⟨name, _, rfl, rfl, rfl⟩

theorem read_cases (c : Cursor) :
    (∃ marks, asideMarks.find? (fun marks => marks.1.isPrefixOf c.rest) = some marks ∧
      read c = readAside marks c) ∨
    asideMarks.find? (fun marks => marks.1.isPrefixOf c.rest) = none ∧
      ("</".toList.isPrefixOf c.rest = true ∧ read c = readEndTag c ∨
        "</".toList.isPrefixOf c.rest = false ∧ read c = readStartTag c) := by
  unfold read
  cases asideMarks.find? fun marks => marks.1.isPrefixOf c.rest with
  | some marks => exact .inl ⟨marks, rfl, rfl⟩
  | none =>
    refine .inr ⟨rfl, ?_⟩
    cases "</".toList.isPrefixOf c.rest with
    | true => exact .inl ⟨rfl, rfl⟩
    | false => exact .inr ⟨rfl, rfl⟩

/-! ## Every token takes some of the text -/

theorem length_rest_readBodyFrom_le {quote : Option Char} {read : List Char} {p : Position}
    (cs : List Char) : (readBodyFrom quote read p cs).next.rest.length ≤ cs.length := by
  induction cs generalizing quote read p with
  | nil => simp [readBodyFrom]
  | cons c rest ih =>
    unfold readBodyFrom
    split
    · exact Nat.le_succ_of_le ih
    · split
      · simp
      · exact Nat.le_succ_of_le ih

theorem length_pos_of_mem_asideMarks {marks : List Char × List Char} (h : marks ∈ asideMarks) :
    0 < marks.1.length := by
  have all : ∀ m ∈ asideMarks, 0 < m.1.length := by decide
  exact all marks h

theorem length_rest_readAside_lt {marks : List Char × List Char} {c : Cursor}
    (hmarks : 0 < marks.1.length) (h : 0 < c.rest.length) :
    (readAside marks c).2.rest.length < c.rest.length := by
  unfold readAside
  split
  · next d hd =>
    have := Cursor.length_rest_past?_le hd
    rw [Cursor.rest_advance, List.length_drop] at this
    show d.rest.length < c.rest.length
    omega
  · exact h

theorem length_rest_advance_lt {c : Cursor} {n : Nat} (hn : 0 < n) (h : 0 < c.rest.length) :
    (c.advance n).rest.length < c.rest.length := by
  rw [Cursor.rest_advance, List.length_drop]
  omega

theorem length_rest_readEndTag_lt {c : Cursor} (h : 0 < c.rest.length) :
    (readEndTag c).2.rest.length < c.rest.length := by
  unfold readEndTag
  split
  · next name _ =>
    have := Text.length_dropWhile_le (p := Text.isInlineBlank)
      ((c.rest.drop 2).drop name.length)
    dsimp only
    split
    · simp only [Cursor.rest_advance, Cursor.rest_skipWhile, List.length_drop] at *
      omega
    · exact length_rest_advance_lt (by omega) h
  · exact length_rest_advance_lt (by omega) h

theorem length_rest_readStartTag_lt {c : Cursor} (h : 0 < c.rest.length) :
    (readStartTag c).2.rest.length < c.rest.length := by
  unfold readStartTag
  split
  · refine Nat.lt_of_le_of_lt (length_rest_readBodyFrom_le _) ?_
    simp only [Cursor.rest_advance, List.length_drop]
    omega
  · exact length_rest_advance_lt (by omega) h

theorem length_rest_read_lt {c : Cursor} (h : c.rest ≠ []) :
    (read c).2.rest.length < c.rest.length := by
  have pos : 0 < c.rest.length := List.length_pos_iff.2 h
  unfold read
  split
  · next marks hmarks =>
    exact length_rest_readAside_lt
      (length_pos_of_mem_asideMarks (List.mem_of_find?_eq_some hmarks)) pos
  · split
    · exact length_rest_readEndTag_lt pos
    · exact length_rest_readStartTag_lt pos

/-! ## The tokens of a text -/

/-- Appends to `done` the tokens from a cursor on. -/
def readOnto (done : Array Token) (c : Cursor) : Array Token :=
  if _ : c.seekMarkup.rest = [] then done
  else readOnto (done.push (read c.seekMarkup).1) (read c.seekMarkup).2
termination_by c.rest.length
decreasing_by
  exact Nat.lt_of_lt_of_le (length_rest_read_lt ‹_›) (Text.length_dropWhile_le c.rest)

/-- The tokens from a cursor on, in order. -/
def readAll (c : Cursor) : List Token :=
  (readOnto #[] c).toList

theorem readOnto_append (before done : Array Token) (c : Cursor) :
    readOnto (before ++ done) c = before ++ readOnto done c := by
  fun_induction readOnto done c with
  | case1 done c h => rw [readOnto, dif_pos h]
  | case2 done c h ih => rw [readOnto, dif_neg h, ← ih, Array.push_append]

/-- Where no markup is left there are no tokens. -/
theorem readAll_eq_nil {c : Cursor} (h : c.seekMarkup.rest = []) : readAll c = [] := by
  rw [readAll, readOnto, dif_pos h]

/-- The first token begins at the next `<`, and the others behind it. -/
theorem readAll_eq_cons {c : Cursor} (h : c.seekMarkup.rest ≠ []) :
    readAll c = (read c.seekMarkup).1 :: readAll (read c.seekMarkup).2 := by
  have moved := readOnto_append #[(read c.seekMarkup).1] #[] (read c.seekMarkup).2
  rw [Array.append_empty] at moved
  rw [readAll, readOnto, dif_neg h, Array.push_eq_append, Array.empty_append, moved,
    Array.toList_append]
  rfl

/-- Induction along the tokens of a text. -/
@[elab_as_elim]
theorem readAll_induction {motive : Cursor → Prop}
    (nil : ∀ c, c.seekMarkup.rest = [] → motive c)
    (cons : ∀ c, c.seekMarkup.rest ≠ [] → motive (read c.seekMarkup).2 → motive c) (c : Cursor) :
    motive c := by
  by_cases h : c.seekMarkup.rest = []
  · exact nil c h
  · exact cons c h (readAll_induction nil cons (read c.seekMarkup).2)
termination_by c.rest.length
decreasing_by
  exact Nat.lt_of_lt_of_le (length_rest_read_lt h) (Text.length_dropWhile_le c.rest)

end Token

end MarkupOutline.Markup
