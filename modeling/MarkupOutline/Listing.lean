import MarkupOutline.Element
import MarkupOutline.Field

/-!
# Listings

A listing shows a forest of elements as a flat list in depth-first pre-order, for picking an
element by its name. Its lines count from 1.
-/

namespace MarkupOutline.Listing

/-- An element as a listing shows it. -/
structure Entry where
  label : String
  tag : String
  kind : Kind
  line : Int
  depth : Nat
deriving DecidableEq, Repr

/-- The entry of an element at a depth. -/
def Entry.ofElement (depth : Nat) (e : Element) : Entry :=
  ⟨e.label, e.tag, e.kind, e.lineNumber, depth⟩

/-- The listing of a forest. -/
def ofForest (forest : Forest Element) : List Entry :=
  (Forest.walk forest).map fun (depth, t) => Entry.ofElement depth t.value

/-- The listing of a forest whose positions come from elsewhere, refused if a line is not counted
from 1. -/
def ofForest? (forest : Forest Element) : Except (List Field.Problem) (List Entry) :=
  let entries := ofForest forest
  if entries.all fun e => 1 ≤ e.line then .ok entries else .error [⟨["line"], .belowOne⟩]

end MarkupOutline.Listing
