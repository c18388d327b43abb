import MarkupOutline.Position
import MarkupOutline.Text.LineEnd

/-!
# Cursors

A `Cursor` is the text still to be read together with the position at which it starts. Every
movement hands back a cursor on a later part of the same text.
-/

namespace MarkupOutline.Markup

/-- The text still to be read and where it starts. -/
structure Cursor where
  position : Position
  rest : List Char
deriving DecidableEq, Repr

namespace Cursor

/-- The start of a text, whose lines end in line feeds from here on. -/
def ofText (cs : List Char) : Cursor :=
  ⟨Position.origin, Text.withLineFeeds cs⟩

/-- The end of the text. -/
def atEnd (c : Cursor) : Cursor :=
  ⟨c.position.afterAll c.rest, []⟩

/-! ## Moving on -/

/-- The cursor `n` characters on, or at the end when there are fewer. -/
def advance (c : Cursor) (n : Nat) : Cursor :=
  ⟨c.position.afterAll (c.rest.take n), c.rest.drop n⟩

theorem advance_append (p : Position) (xs ys : List Char) :
    advance ⟨p, xs ++ ys⟩ xs.length = ⟨p.afterAll xs, ys⟩ := by
  rw [advance, List.take_left, List.drop_left]

/-- The cursor behind the leading characters of a class. -/
def skipWhile (p : Char → Bool) (c : Cursor) : Cursor :=
  ⟨c.position.afterAll (c.rest.takeWhile p), c.rest.dropWhile p⟩

/-- The next place where markup may begin, a `<`, or the end. -/
def seekMarkup (c : Cursor) : Cursor :=
  c.skipWhile (· ≠ '<')

/-- The place behind the first `mark` in a text that starts at `p`. -/
def pastFrom? (mark : List Char) (p : Position) : List Char → Option Cursor
  | [] => none
  | c :: rest =>
    if mark.isPrefixOf (c :: rest) then some (advance ⟨p, c :: rest⟩ mark.length)
    else pastFrom? mark (p.after c) rest

/-- The place behind the next `mark`, if there is one. -/
def past? (mark : List Char) (c : Cursor) : Option Cursor :=
  pastFrom? mark c.position c.rest

/-! ## What is left -/

@[simp]
theorem rest_advance (c : Cursor) (n : Nat) : (c.advance n).rest = c.rest.drop n := rfl

@[simp]
theorem rest_skipWhile (p : Char → Bool) (c : Cursor) :
    (c.skipWhile p).rest = c.rest.dropWhile p := rfl

@[simp]
theorem rest_atEnd (c : Cursor) : c.atEnd.rest = [] := rfl

theorem length_rest_pastFrom?_le {mark : List Char} {c : Cursor} :
    ∀ {p : Position} {cs : List Char}, pastFrom? mark p cs = some c → c.rest.length ≤ cs.length
  | _, [], h => by simp [pastFrom?] at h
  | p, x :: rest, h => by
    unfold pastFrom? at h
    split at h
    · simp only [Option.some.injEq] at h
      simp [← h]
    · have := length_rest_pastFrom?_le h
      simp only [List.length_cons]
      omega

theorem length_rest_past?_le {mark : List Char} {c d : Cursor} (h : c.past? mark = some d) :
    d.rest.length ≤ c.rest.length :=
  length_rest_pastFrom?_le h

end Cursor

end MarkupOutline.Markup
