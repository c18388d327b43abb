import MarkupOutline.Json
import MarkupOutline.Listing
import MarkupOutline.Outline

/-!
# Answers as JSON

How outlines, listings and elements are written as JSON values. A tree of too many levels is not
written.
-/

namespace MarkupOutline.Encoding

/-- A position is a line and a column. -/
def position (p : Position) : Json :=
  .array [.integer p.line, .integer p.column]

/-- A span is its bounds. -/
def span (s : Span) : Json :=
  .object [("start", position s.start), ("end", position s.stop)]

/-- A symbol and the symbols below it. -/
def symbol (s : Outline.Symbol) (below : List Json) : Json :=
  .object [("name", .string s.name), ("detail", .string s.detail), ("kind", .string s.kind.name),
    ("range", span s.range), ("selection_range", span s.selection), ("children", .array below)]

/-- An entry of a listing. -/
def entry (e : Listing.Entry) : Json :=
  .object [("label", .string e.label), ("tag_name", .string e.tag), ("kind", .string e.kind.name),
    ("line", .integer e.line), ("depth", .ofNat e.depth)]

/-- An element and the elements below it. -/
def element (e : Element) (below : List Json) : Json :=
  .object [("tag_name", .string e.tag),
    ("attributes", .object (e.attributes.entries.map fun (key, value) => (key, .string value))),
    ("label", .string e.label), ("kind", .string e.kind.name), ("span", span e.span),
    ("children", .array below)]

/-- A listing. -/
def listing (entries : List Listing.Entry) : Json :=
  .array (entries.map entry)

/-! ## Levels -/

/-- The most levels that an outline may have. -/
def maxOutlineLevels : Nat := 252

/-- The wording of a tree that has too many levels. -/
def tooDeep : String := "Maximum serialization depth exceeded"

/-- An outline, unless it has too many levels. -/
def outline? (outline : Forest Outline.Symbol) : Option Json :=
  if Forest.height outline ≤ maxOutlineLevels then some (.array (Forest.fold symbol outline))
  else none

/-- An element with all that is below it, unless that is more than `maxLevels` levels. -/
def element? (maxLevels : Nat) (t : Tree Element) : Option Json :=
  if Forest.height [t] ≤ maxLevels then (Forest.fold element [t]).head? else none

end MarkupOutline.Encoding
