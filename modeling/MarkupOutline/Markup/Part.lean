import MarkupOutline.Attributes.Text
import MarkupOutline.Element
import MarkupOutline.Markup.Token

/-!
# Parts

While a text is read its elements are parts: they have numbers, in the order in which their tags
are met, and each tells by number what stands directly inside it. The end of a part still moves, so
its bounds are checked only when a tree is built of it.
-/

namespace MarkupOutline.Markup

/-- An element whose bounds have not been checked. -/
structure Sketch where
  tag : String
  attributes : Attributes
  label : String
  kind : Kind
  start : Position
  stop : Position
deriving DecidableEq, Repr

/-- The sketch of a tag with the given attributes and bounds. -/
def Sketch.ofTag (tag : String) (a : Attributes) (start stop : Position) : Sketch :=
  ⟨tag, a, Element.labelOf tag a, Kind.ofTag tag, start, stop⟩

/-- The sketch with its end moved to `p`. -/
def Sketch.endAt (p : Position) (s : Sketch) : Sketch :=
  { s with stop := p }

/-- The sketch of a start tag, which ends with the tag. -/
def StartTag.sketch (tag : StartTag) : Sketch :=
  Sketch.ofTag tag.name (Attributes.ofText tag.attributeText) tag.start tag.stop

/-- A sketch with the numbers of the parts directly inside it, in order. -/
structure Part where
  sketch : Sketch
  children : Array Nat
deriving DecidableEq, Repr

/-- The part with its end moved to `p`. -/
def Part.endAt (p : Position) (part : Part) : Part :=
  { part with sketch := part.sketch.endAt p }

/-- The part with one more part inside it. -/
def Part.addChild (number : Nat) (part : Part) : Part :=
  { part with children := part.children.push number }

/-! ## Building trees -/

/-- Why parts make no forest. -/
inductive Flaw where
  /-- The end of a part precedes its start. -/
  | reversed (bounds : Span.Reversed)
  /-- A part is asked for that has not been built. -/
  | unbuilt (number : Nat)
deriving DecidableEq, Repr

/-- The wording of a flaw. -/
def Flaw.message : Flaw → String
  | reversed bounds => bounds.message
  | unbuilt number => "Part " ++ toString number ++ " has not been built"

/-- The element of a sketch, refused if its bounds are reversed. -/
def Sketch.element (s : Sketch) : Except Flaw Element :=
  match Span.ofBounds s.start s.stop with
  | .ok span => .ok ⟨s.tag, s.attributes, s.label, s.kind, span⟩
  | .error bounds => .error (.reversed bounds)

/-- The trees built so far, each at the number of its part. -/
abbrev Built := Array (Option (Tree Element))

/-- The tree of a part that has been built. -/
def Built.tree (built : Built) (number : Nat) : Except Flaw (Tree Element) :=
  match built[number]? with
  | some (some t) => .ok t
  | _ => .error (.unbuilt number)

/-- The tree of a part, of its element and of the trees built for the parts inside it. -/
def Part.tree (built : Built) (part : Part) : Except Flaw (Tree Element) := do
  let element ← part.sketch.element
  let children ← part.children.toList.mapM built.tree
  return ⟨element, children⟩

/-- Builds the parts with the numbers below `n`. The last comes first: what stands inside a part has
a greater number than the part. -/
def buildBelow (parts : Array Part) : (n : Nat) → n ≤ parts.size → Built → Except Flaw Built
  | 0, _, built => .ok built
  | n + 1, h, built =>
    match parts[n].tree built with
    | .ok t => buildBelow parts n (Nat.le_of_succ_le h) (built.setIfInBounds n (some t))
    | .error flaw => .error flaw

/-- The forest of the given parts and of those inside them. -/
def buildForest (parts : Array Part) (roots : Array Nat) : Except Flaw (Forest Element) := do
  let built ← buildBelow parts parts.size (Nat.le_refl _) (Array.replicate parts.size none)
  roots.toList.mapM built.tree

end MarkupOutline.Markup
