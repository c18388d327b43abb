import MarkupOutline.Element
import MarkupOutline.Field

/-!
# Elements given as data

A forest may be given as data instead of being read from a text. Each node is checked: its range
first, then the nodes below it, then its own fields. The first node that does not fit is reported.
-/

namespace MarkupOutline

/-- A node that has not been checked. -/
structure Draft where
  tag : Option Json
  attributes : List (String × Json)
  label : Option Json
  kind : Option Json
  start : Position
  stop : Position

namespace Draft

/-- The kind written under a name. -/
def readKind : Json → Except Field.Fault Kind
  | .string s =>
    match Kind.ofName? s with
    | some k => .ok k
    | none => .error .notKind
  | _ => .error .notKind

/-- The attributes that pairs denote; of a repeated key only the last value counts. -/
def readAttributes (pairs : List (String × Json)) : Field.Checked Attributes :=
  let read : List (String × Option String) := pairs.map fun (key, value) =>
    (key, (Field.string value).toOption)
  -- a value that is no string counts only if it is the last one of its key
  let attributes := Attributes.ofList (read.map fun (key, value) => (key, value.getD ""))
  match attributes.keys.filter fun key => read.reverse.lookup key == some none with
  | [] => ⟨.ok attributes⟩
  | keys => ⟨.error (keys.map fun key => ⟨["attributes", key], .notString⟩)⟩

/-- The element that a draft denotes, with its range. -/
def element (d : Draft) (span : Span) : Field.Checked Element :=
  (fun tag attributes label kind => ⟨tag, attributes, label, kind, span⟩) <$>
    Field.required Field.string "tag_name" d.tag <*>
    readAttributes d.attributes <*>
    Field.required Field.string "label" d.label <*>
    Field.optional readKind .other "kind" d.kind

mutual

/-- The tree that a tree of drafts denotes. -/
def tree : Tree Draft → Except (List Field.Problem) (Tree Element)
  | ⟨d, children⟩ =>
    match Span.ofBounds d.start d.stop with
    | .error bounds => .error [⟨[], .reversedSpan bounds⟩]
    | .ok span =>
      match forest children with
      | .error ps => .error ps
      | .ok below =>
        match (d.element span).result with
        | .error ps => .error ps
        | .ok e => .ok ⟨e, below⟩

/-- The forest that a forest of drafts denotes. -/
def forest : List (Tree Draft) → Except (List Field.Problem) (Forest Element)
  | [] => .ok []
  | d :: ds =>
    match tree d with
    | .error ps => .error ps
    | .ok t =>
      match forest ds with
      | .error ps => .error ps
      | .ok ts => .ok (t :: ts)

end

end Draft

end MarkupOutline
