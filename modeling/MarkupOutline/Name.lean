/-!
# Names

Tags and attributes are named alike: an ASCII letter followed by ASCII letters, digits and the
marks `.`, `:`, `_` and `-`. A dot makes a tag a property element, `Owner.Member`.
-/

namespace MarkupOutline.Name

/-- The characters a name begins with. -/
def isStart (c : Char) : Bool :=
  c.isAlpha

/-- The characters a name goes on with. -/
def isPart (c : Char) : Bool :=
  c.isAlphanum || c == '.' || c == ':' || c == '_' || c == '-'

/-- The longest name in front of the text, if there is one. -/
def read? (cs : List Char) : Option (List Char) :=
  if cs.head?.any isStart then some (cs.takeWhile isPart) else none

/-- Whether a tag is a property element. -/
def isDotted (tag : String) : Bool :=
  '.' ∈ tag.toList

/-- The part of a tag behind its last dot, the whole tag when it has none. -/
def member (tag : String) : String :=
  String.ofList (tag.toList.reverse.takeWhile (· ≠ '.')).reverse

theorem isPart_of_isStart {c : Char} (h : isStart c) : isPart c := by
  simp only [isStart] at h
  simp [isPart, Char.isAlphanum, h]

end MarkupOutline.Name
