import MarkupOutline.Attributes
import MarkupOutline.Kind
import MarkupOutline.Position
import MarkupOutline.Tree

/-!
# Elements

An element of the tree: its tag, its attributes, the label it is shown under, its kind and the
range of the text it covers.
-/

namespace MarkupOutline

/-- One element, without those below it. -/
structure Element where
  tag : String
  attributes : Attributes
  label : String
  kind : Kind
  span : Span
deriving DecidableEq, Repr

/-- The value of a key, when it is not empty. -/
def Attributes.shown? (a : Attributes) (key : String) : Option String :=
  (a.get? key).filter (· ≠ "")

namespace Element

/-- The keys of the content that labels an element without a name. -/
def contentKeys : String → List String
  | "Button" => ["Content", "Text"]
  | "TextBlock" => ["Text", "Content"]
  | _ => []

/-- The label of an element: its name, else its tag in square brackets, with the content of a
button or text block. -/
def labelOf (tag : String) (a : Attributes) : String :=
  match ["x:Name", "Name"].findSome? a.shown? with
  | some name => name
  | none =>
    match (contentKeys tag).findSome? a.shown? with
    | some content => "[" ++ tag ++ " \"" ++ content ++ "\"]"
    | none => "[" ++ tag ++ "]"

/-- The number of the line on which an element starts, counted from 1. -/
def lineNumber (e : Element) : Int :=
  e.span.start.line + 1

/-- An element and the number of its parts in one line. -/
def describe (t : Tree Element) : String :=
  let e := t.value
  e.label ++ " <" ++ e.tag ++ "> | kind: " ++ e.kind.name ++ " | line: " ++ toString e.lineNumber ++
    " | attributes: " ++ toString e.attributes.size ++
    " | children: " ++ toString t.children.length

end Element

end MarkupOutline
