import Mathlib.Data.List.Forall2
import MarkupOutline.Markup.Assembly

/-!
# Aspects of tokens

Two texts may differ in what is not looked at. An `Aspect` says what is looked at: a change of
sketches that forgets the rest, and one of the places at which they end. Tokens are alike under an
aspect when what is looked at is the same.

Three aspects are looked at. The shape of a forest and what its elements show do not depend on where
the tags stand (`Aspect.blur`); one place can be kept in view, and a blurred sketch still tells
whether its tag starts there. Nor do tags, kinds and bounds depend on the attributes
(`Aspect.bare`). And of a start tag nothing is taken in but its sketch and whether it is closed, so
tokens that are alike under `Aspect.all` are assembled to the same reading (`assemble_congr`).
-/

namespace MarkupOutline.Markup

/-- What is looked at of sketches and of the places at which they end. Tags are always looked at,
and the end may be moved before or after looking. -/
structure Aspect where
  sketch : Sketch → Sketch
  place : Position → Position
  tag_sketch : ∀ s, (sketch s).tag = s.tag
  sketch_endAt : ∀ q s, sketch (s.endAt q) = (sketch s).endAt (place q)

/-- The sketch of which nothing is left of the bounds but whether it starts at `p`. -/
def Sketch.blur (p : Position) (s : Sketch) : Sketch :=
  { s with start := if s.start = p then p else p.right 1, stop := p }

/-- A blurred sketch tells whether its tag starts at the place in view. -/
theorem Sketch.start_blur_eq_iff (p : Position) (s : Sketch) :
    (s.blur p).start = p ↔ s.start = p := by
  have hright : p.right 1 ≠ p := by
    intro h
    have hcolumn : p.column + 1 = p.column := congrArg Position.column h
    omega
  rw [blur]
  by_cases h : s.start = p
  · simp [h]
  · simp [h, hright]

/-- The sketch without what its attributes say. -/
def Sketch.bare (s : Sketch) : Sketch :=
  { s with attributes := .empty, label := "" }

namespace Aspect

/-- All there is. -/
def all : Aspect where
  sketch := id
  place := id
  tag_sketch _ := rfl
  sketch_endAt _ _ := rfl

/-- All but the bounds, of which is left whether a sketch starts at `p`. -/
def blur (p : Position) : Aspect where
  sketch := Sketch.blur p
  place _ := p
  tag_sketch _ := rfl
  sketch_endAt _ _ := rfl

/-- All but attributes and label. -/
def bare : Aspect where
  sketch := Sketch.bare
  place := id
  tag_sketch _ := rfl
  sketch_endAt _ _ := rfl

end Aspect

/-- Two tokens that do the same under an aspect: the sketches of two start tags look the same, and
both are closed by themselves or neither is; two end tags have the same name and end at places that
look the same. -/
inductive Token.Alike (a : Aspect) : Token → Token → Prop
  | startTag {tag tag' : StartTag} (hsketch : a.sketch tag.sketch = a.sketch tag'.sketch)
      (hclosed : tag.ending = .closed ↔ tag'.ending = .closed) :
      Alike a (.startTag tag) (.startTag tag')
  | endTag (name : String) {q q' : Position} (hplace : a.place q = a.place q') :
      Alike a (.endTag name q) (.endTag name q')
  | aside (ended : Bool) : Alike a (.aside ended) (.aside ended)
  | stray : Alike a .stray .stray

theorem Token.Alike.refl {a : Aspect} (token : Token) : Token.Alike a token token := by
  cases token with
  | startTag tag => exact .startTag rfl Iff.rfl
  | endTag name q => exact .endTag name rfl
  | aside ended => exact .aside ended
  | stray => exact .stray

/-! ## Taking in tokens that are alike -/

variable {token token' : Token}

theorem Assembly.mismatch?_congr (a : Assembly) (h : Token.Alike .all token token') :
    a.mismatch? token = a.mismatch? token' := by
  cases h with
  | @endTag name q q' hplace =>
    obtain rfl : q = q' := hplace
    rfl
  | startTag hsketch hclosed => rfl
  | aside ended => rfl
  | stray => rfl

/-- Of a start tag an assembly takes in its sketch and whether it is closed. -/
theorem Assembly.start_congr (a : Assembly) {tag tag' : StartTag}
    (hsketch : tag.sketch = tag'.sketch)
    (hclosed : tag.ending = .closed ↔ tag'.ending = .closed) : a.start tag = a.start tag' := by
  have hname : tag.name = tag'.name := congrArg Sketch.tag hsketch
  simp only [start, hname, hsketch, hclosed]

theorem Assembly.step_congr (a : Assembly) (h : Token.Alike .all token token') :
    a.step token = a.step token' := by
  cases h with
  | startTag hsketch hclosed => exact a.start_congr hsketch hclosed
  | @endTag name q q' hplace =>
    obtain rfl : q = q' := hplace
    rfl
  | aside ended => rfl
  | stray => rfl

/-- Tokens that are alike in all that is taken in are assembled to the same reading. -/
theorem assemble_congr {tokens tokens' : List Token}
    (h : List.Forall₂ (Token.Alike .all) tokens tokens') (strict : Bool) (lines : Nat)
    (stop : Position) (a : Assembly) :
    assemble strict lines stop a tokens = assemble strict lines stop a tokens' := by
  induction h generalizing a with
  | nil => rfl
  | cons hfirst _ ih =>
    rw [assemble, assemble, a.mismatch?_congr hfirst, a.step_congr hfirst]
    split
    · rfl
    · exact ih _

end MarkupOutline.Markup
