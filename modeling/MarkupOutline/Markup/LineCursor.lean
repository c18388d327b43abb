import MarkupOutline.Markup.Token
import MarkupOutline.Text.Lines

/-!
# Reading line by line

A document is read on its lines. What a `<` begins is told by the rest of its line alone, and so is
an end tag; only asides and start tags go on below when they do not end on the line. A start tag
that does is put together from its lines, the first as it stands and the others trimmed, with blanks
between them, and its name and the marks that end it are cut off by their lengths.

Every turn leaves less of the lines (`size_turn_lt`), so reading comes to an end.
-/

namespace MarkupOutline.Markup

/-- A place on the lines of a text: the numbers of its line and its column, what is left of the
line, and the lines below. Past the last line nothing is left. -/
structure LineCursor where
  line : Nat
  column : Nat
  left : List (List Char)
deriving DecidableEq, Repr

namespace LineCursor

/-- The start of the first of some lines. -/
def ofLines (ls : List (List Char)) : LineCursor :=
  ⟨0, 0, ls⟩

def position (c : LineCursor) : Position :=
  ⟨c.line, c.column⟩

/-- What is left of the line. -/
def here (c : LineCursor) : List Char :=
  c.left.headD []

/-! ## Moving on -/

/-- The place `n` columns further on the line. -/
def right (c : LineCursor) (n : Nat) : LineCursor :=
  ⟨c.line, c.column + n, c.left.modifyHead (·.drop n)⟩

/-- The start of the next line. -/
def below (c : LineCursor) : LineCursor :=
  ⟨c.line + 1, 0, c.left.tail⟩

/-- The place past the last line. -/
def pastLast (c : LineCursor) : LineCursor :=
  ⟨c.line + c.left.length, 0, []⟩

/-- The line and the column at which the text ends. -/
def lastPlace (c : LineCursor) : Nat × Nat :=
  match c.left with
  | [] => (c.line, c.column)
  | [here] => (c.line, c.column + here.length)
  | _ :: below => (c.line + below.length, (below.getLastD []).length)

/-- The place behind the first `mark` from a column of a line on, be it on a line below. -/
def pastFrom? (mark : List Char) (line column : Nat) : List (List Char) → Option LineCursor
  | [] => none
  | here :: below =>
    match Text.find? mark here with
    | some n => some ⟨line, column + (n + mark.length), here.drop (n + mark.length) :: below⟩
    | none => pastFrom? mark (line + 1) 0 below

/-- The place behind the next `mark`, if there is one. -/
def past? (mark : List Char) (c : LineCursor) : Option LineCursor :=
  pastFrom? mark c.line c.column c.left

/-! ## Start tags -/

/-- Looks on a line for the `>` that ends a tag. `quote` is the mark that is open, and `n`
characters have been looked at before: the number of characters up to and with the `>`, or the mark
that is open at the end of the line. -/
def tagEndOnLine (quote : Option Char) (n : Nat) : List Char → Except (Option Char) Nat
  | [] => .error quote
  | c :: rest =>
    match quote with
    | some q => tagEndOnLine (if c = q then none else some q) (n + 1) rest
    | none =>
      if Attributes.isQuote c then tagEndOnLine (some c) (n + 1) rest
      else if c = '>' then .ok (n + 1)
      else tagEndOnLine none (n + 1) rest

/-- The place behind the `>` that ends a tag, from a column of a line on. A mark that is open at the
end of a line is open at the start of the next. -/
def tagEndFrom? (quote : Option Char) (line column : Nat) : List (List Char) → Option LineCursor
  | [] => none
  | here :: below =>
    match tagEndOnLine quote 0 here with
    | .ok n => some ⟨line, column + n, here.drop n :: below⟩
    | .error quote => tagEndFrom? quote (line + 1) 0 below

/-- The place behind the `>` that ends a tag, if one does. -/
def tagEnd? (c : LineCursor) : Option LineCursor :=
  tagEndFrom? none c.line c.column c.left

/-- What stands on each line between a cursor and a column of the line `down` lines below. -/
def piecesTo (c : LineCursor) (down column : Nat) : List (List Char) :=
  if down = 0 then [c.here.take (column - c.column)]
  else c.left.take down ++ [((c.left.drop down).headD []).take column]

/-- The text between a cursor and a column of the line `down` lines below, put together from its
lines: the first as it stands, the others trimmed, and a blank in between. -/
def textTo (c : LineCursor) (down column : Nat) : List Char :=
  match c.piecesTo down column with
  | [] => []
  | first :: others => [' '].intercalate (first :: others.map Text.trim)

/-- The start tag that begins at a cursor and ends at a line and a column. Its name and what ends it
are cut off the text that is put together from its lines. -/
def startTag (c : LineCursor) (name : List Char) (isEnded : Bool) (stop : Nat × Nat) : StartTag :=
  let text := c.textTo (stop.1 - c.line) stop.2
  let behindName := text.drop (name.length + 1)
  { name := String.ofList name
    start := c.position
    stop := ⟨stop.1, stop.2⟩
    body := if isEnded then behindName.dropLast else behindName
    ending :=
      if isEnded then (if Text.endsIn "/>".toList text then .closed else .opened) else .missing }

/-! ## Tokens -/

/-- Reads an aside that begins and ends with the given marks. -/
def readAside (marks : List Char × List Char) (c : LineCursor) : Token × LineCursor :=
  match (c.right marks.1.length).past? marks.2 with
  | some next => (.aside true, next)
  | none => (.aside false, c.pastLast)

/-- Reads what `</` begins: an end tag is its name, blanks on the same line, and `>`. -/
def readEndTag (c : LineCursor) : Token × LineCursor :=
  match Name.read? (c.right 2).here with
  | some name =>
    let behindName := c.right (2 + name.length)
    let ending := behindName.right (behindName.here.takeWhile Text.isBlank).length
    if ending.here.head? = some '>' then
      (.endTag (String.ofList name) (ending.right 1).position, ending.right 1)
    else (.stray, c.right 2)
  | none => (.stray, c.right 2)

/-- Reads what any other `<` begins: a start tag if a name follows at once. -/
def readStartTag (c : LineCursor) : Token × LineCursor :=
  match Name.read? (c.right 1).here with
  | some name =>
    match (c.right (1 + name.length)).tagEnd? with
    | some next => (.startTag (c.startTag name true (next.line, next.column)), next)
    -- a tag that does not end takes all of the text
    | none => (.startTag (c.startTag name false c.lastPlace), c.pastLast)
  | none => (.stray, c.right 1)

/-- Reads the token that begins at a cursor. -/
def read (c : LineCursor) : Token × LineCursor :=
  match Token.asideMarks.find? fun marks => marks.1.isPrefixOf c.here with
  | some marks => readAside marks c
  | none => if "</".toList.isPrefixOf c.here then readEndTag c else readStartTag c

/-- One turn: reads the token at the next `<` of the line, or goes to the next line when there is
none. -/
def turn (c : LineCursor) : Option Token × LineCursor :=
  match Text.find? ['<'] c.here with
  | some n => ((read (c.right n)).1, (read (c.right n)).2)
  | none => (none, c.below)

/-! ## Every turn leaves less -/

/-- The length of some lines, line ends counted. -/
def extent (ls : List (List Char)) : Nat :=
  ls.foldr (fun l rest => l.length + 1 + rest) 0

/-- The length of what is left. -/
def size (c : LineCursor) : Nat :=
  extent c.left

theorem size_mk_cons (line column : Nat) (here : List Char) (below : List (List Char)) :
    size ⟨line, column, here :: below⟩ = here.length + 1 + extent below :=
  rfl

theorem size_right_le (c : LineCursor) (n : Nat) : (c.right n).size ≤ c.size := by
  obtain ⟨line, column, left⟩ := c
  cases left with
  | nil => exact Nat.le_refl _
  | cons here below =>
    rw [right, List.modifyHead_cons, size_mk_cons, size_mk_cons, List.length_drop]
    omega

theorem size_right_lt {c : LineCursor} {n : Nat} (hn : 0 < n) (h : c.here ≠ []) :
    (c.right n).size < c.size := by
  obtain ⟨line, column, left⟩ := c
  cases left with
  | nil => exact absurd rfl h
  | cons here below =>
    have hpos : 0 < here.length := List.length_pos_iff.2 h
    rw [right, List.modifyHead_cons, size_mk_cons, size_mk_cons, List.length_drop]
    omega

theorem size_pastLast_lt {c : LineCursor} (h : c.left ≠ []) : c.pastLast.size < c.size := by
  obtain ⟨line, column, left⟩ := c
  cases left with
  | nil => exact absurd rfl h
  | cons here below =>
    rw [size_mk_cons]
    exact Nat.lt_of_lt_of_le (Nat.succ_pos here.length) (Nat.le_add_right _ _)

theorem size_below_lt {c : LineCursor} (h : c.left ≠ []) : c.below.size < c.size := by
  obtain ⟨line, column, left⟩ := c
  cases left with
  | nil => exact absurd rfl h
  | cons here below =>
    rw [size_mk_cons]
    exact Nat.lt_add_of_pos_left (Nat.succ_pos here.length)

theorem size_pastFrom?_le {mark : List Char} {line column : Nat} {left : List (List Char)}
    {d : LineCursor} (h : pastFrom? mark line column left = some d) :
    d.size ≤ size ⟨line, column, left⟩ := by
  induction left generalizing line column with
  | nil => simp [pastFrom?] at h
  | cons here below ih =>
    unfold pastFrom? at h
    split at h
    · rw [← Option.some.inj h, size_mk_cons, size_mk_cons, List.length_drop]
      omega
    · have hle : d.size ≤ extent below := ih h
      rw [size_mk_cons]
      omega

theorem size_tagEndFrom?_le {quote : Option Char} {line column : Nat} {left : List (List Char)}
    {d : LineCursor} (h : tagEndFrom? quote line column left = some d) :
    d.size ≤ size ⟨line, column, left⟩ := by
  induction left generalizing quote line column with
  | nil => simp [tagEndFrom?] at h
  | cons here below ih =>
    unfold tagEndFrom? at h
    split at h
    · rw [← Option.some.inj h, size_mk_cons, size_mk_cons, List.length_drop]
      omega
    · have hle : d.size ≤ extent below := ih h
      rw [size_mk_cons]
      omega

theorem left_ne_nil_of_here {c : LineCursor} (h : c.here ≠ []) : c.left ≠ [] := by
  intro hnil
  rw [here, hnil] at h
  exact h rfl

theorem size_readAside_lt {marks : List Char × List Char} {c : LineCursor}
    (hmarks : 0 < marks.1.length) (h : c.here ≠ []) : (readAside marks c).2.size < c.size := by
  unfold readAside
  split
  · next d hd =>
    exact Nat.lt_of_le_of_lt (size_pastFrom?_le hd) (size_right_lt hmarks h)
  · exact size_pastLast_lt (left_ne_nil_of_here h)

theorem size_readEndTag_lt {c : LineCursor} (h : c.here ≠ []) :
    (readEndTag c).2.size < c.size := by
  unfold readEndTag
  split
  · next name _ =>
    dsimp only
    split
    · refine Nat.lt_of_le_of_lt (size_right_le _ 1) (Nat.lt_of_le_of_lt (size_right_le _ _) ?_)
      exact size_right_lt (Nat.lt_add_right _ Nat.two_pos) h
    · exact size_right_lt Nat.two_pos h
  · exact size_right_lt Nat.two_pos h

theorem size_readStartTag_lt {c : LineCursor} (h : c.here ≠ []) :
    (readStartTag c).2.size < c.size := by
  unfold readStartTag
  split
  · next name _ =>
    split
    · next d hd =>
      refine Nat.lt_of_le_of_lt (size_tagEndFrom?_le hd) ?_
      exact size_right_lt (Nat.lt_add_right _ Nat.one_pos) h
    · exact size_pastLast_lt (left_ne_nil_of_here h)
  · exact size_right_lt Nat.one_pos h

theorem size_read_lt {c : LineCursor} (h : c.here ≠ []) : (read c).2.size < c.size := by
  unfold read
  split
  · next marks hmarks =>
    exact size_readAside_lt
      (Token.length_pos_of_mem_asideMarks (List.mem_of_find?_eq_some hmarks)) h
  · split
    · exact size_readEndTag_lt h
    · exact size_readStartTag_lt h

/-- Where a mark has been found the line goes on. -/
theorem here_right_ne_nil {c : LineCursor} {n : Nat} (h : n < c.here.length) :
    (c.right n).here ≠ [] := by
  obtain ⟨line, column, left⟩ := c
  cases left with
  | nil => exact absurd h (Nat.not_lt_zero n)
  | cons here below =>
    show here.drop n ≠ []
    rw [Ne, List.drop_eq_nil_iff]
    exact Nat.not_le.2 h

theorem size_turn_lt {c : LineCursor} (h : c.left ≠ []) : c.turn.2.size < c.size := by
  unfold turn
  split
  · next n hn =>
    exact Nat.lt_of_lt_of_le (size_read_lt (here_right_ne_nil (Text.find?_add_length_le hn)))
      (size_right_le c n)
  · exact size_below_lt h

/-! ## The tokens of some lines -/

/-- Appends to `done` the tokens from a cursor on. -/
def tokensOnto (done : Array Token) (c : LineCursor) : Array Token :=
  if _ : c.left = [] then done
  else tokensOnto (match c.turn.1 with
    | some token => done.push token
    | none => done) c.turn.2
termination_by c.size
decreasing_by
  exact size_turn_lt ‹_›

/-- The tokens from a cursor on, in order. -/
def tokens (c : LineCursor) : List Token :=
  (tokensOnto #[] c).toList

end LineCursor

end MarkupOutline.Markup
