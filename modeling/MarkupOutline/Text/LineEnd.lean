/-!
# Line ends

A line ends at a line feed. One carriage return right before it, or at the end of the text,
belongs to the line end and not to the line.
-/

namespace MarkupOutline.Text

/-- Whether a carriage return followed by `next` belongs to a line end. -/
def endsLine (next : Option Char) : Bool :=
  next.all (· == '\n')

/-- The text with every line ended by a line feed alone. -/
def withLineFeeds (cs : List Char) : List Char :=
  (cs.foldr (fun c (next, out) =>
    (some c, if c = '\r' && endsLine next then out else c :: out)) (none, [])).2

@[simp]
theorem withLineFeeds_nil : withLineFeeds [] = [] := rfl

/-- A carriage return goes if it belongs to a line end, all else stays. -/
theorem withLineFeeds_cons (c : Char) (cs : List Char) :
    withLineFeeds (c :: cs) =
      if c = '\r' && endsLine cs.head? then withLineFeeds cs else c :: withLineFeeds cs := by
  cases cs <;> rfl

/-- The number of lines; the last one may be empty. -/
def lineCount (cs : List Char) : Nat :=
  cs.count '\n' + 1

/-- The text with every line end, a line feed, a carriage return or both, written as one line
feed. -/
def withUniformLineEnds (cs : List Char) : List Char :=
  (cs.foldr (fun c (next, out) =>
    (some c, if c = '\r' then (if next = some '\n' then out else '\n' :: out) else c :: out))
    (none, [])).2

end MarkupOutline.Text
