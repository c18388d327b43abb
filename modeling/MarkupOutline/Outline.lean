import MarkupOutline.Element
import MarkupOutline.Tree.Numbered

/-!
# Outlines

An outline shows a forest of elements as a forest of symbols of the same shape: what an element is
called, what it is, which range it covers and which part of it to select. It can be rendered as
indented text, one symbol a line.
-/

namespace MarkupOutline.Outline

/-- An element as an outline shows it. -/
structure Symbol where
  name : String
  detail : String
  kind : Kind
  range : Span
  selection : Span
deriving DecidableEq, Repr

/-- The place of the tag's name in its start tag, right behind the `<`. -/
def selectionOf (e : Element) : Span :=
  Span.columns (e.span.start.right 1) e.tag.length

/-- The symbol of an element; its detail may tell the line on which it starts. -/
def Symbol.ofElement (lineNumbers : Bool) (e : Element) : Symbol :=
  { name := e.label
    detail := if lineNumbers then e.tag ++ " (line " ++ toString e.lineNumber ++ ")" else e.tag
    kind := e.kind
    range := e.span
    selection := selectionOf e }

/-- The outline of a forest. -/
def ofForest (lineNumbers : Bool) (forest : Forest Element) : Forest Symbol :=
  Forest.mapNumbered (Symbol.ofElement lineNumbers) forest

/-- An outline has the shape of the forest. -/
theorem ofForest_eq_map (lineNumbers : Bool) (forest : Forest Element) :
    ofForest lineNumbers forest = Forest.map (Symbol.ofElement lineNumbers) forest :=
  Forest.mapNumbered_eq_map _ forest

/-- A symbol as a line of text, four blanks in for each level. -/
def line (level : Int) (s : Symbol) : String :=
  String.ofList (List.replicate (4 * level).toNat ' ') ++ s.name ++ "  (" ++ s.detail ++ ")"

/-- The outline as text whose roots stand at the level `indent`. -/
def render (indent : Int) (outline : Forest Symbol) : String :=
  "\n".intercalate ((Forest.walk outline).map fun (depth, t) => line (indent + depth) t.value)

end MarkupOutline.Outline
