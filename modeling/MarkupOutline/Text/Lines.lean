import MarkupOutline.Position

/-!
# The lines of a text

A text is cut into lines at its line feeds, and each line goes without one carriage return at its
end. There is always a last line, which may be empty; the text ends behind it.
-/

namespace MarkupOutline.Text

/-- The pieces of a text between its line feeds. -/
def pieces (cs : List Char) : List (List Char) :=
  let cut := cs.foldr (fun c (piece, others) =>
    if c = '\n' then ([], piece :: others) else (c :: piece, others)) ([], [])
  cut.1 :: cut.2

/-- A line feed begins a new piece, any other character belongs to the first. -/
theorem pieces_cons (c : Char) (cs : List Char) :
    pieces (c :: cs) =
      if c = '\n' then [] :: pieces cs else (pieces cs).modifyHead (c :: ·) := by
  unfold pieces
  rw [List.foldr_cons]
  dsimp only
  split <;> rfl

/-- A line without one carriage return at its end, if it has one there. -/
def withoutReturn (line : List Char) : List Char :=
  if line.getLast? = some '\r' then line.dropLast else line

/-- The lines of a text. -/
def lines (cs : List Char) : List (List Char) :=
  (pieces cs).map withoutReturn

/-- The place behind the last line. -/
def lastPlace (lines : List (List Char)) : Position :=
  ⟨lines.length - 1, (lines.getLastD []).length⟩

end MarkupOutline.Text
