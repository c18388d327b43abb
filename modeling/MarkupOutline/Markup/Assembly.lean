import MarkupOutline.Definition
import MarkupOutline.Markup.LineCursor
import MarkupOutline.Markup.Notice
import MarkupOutline.Markup.Part

/-!
# Assembling elements

Tokens become the parts of a forest with the help of the tags that are open, innermost first.

* A definition block shows nothing: while one is open no part is made.
* A property element makes no part either; what stands in it belongs to the nearest part around it
  that is open.
* An end tag closes the innermost open tag, whatever its name; a strict reading stops in front of
  it when the names differ.
-/

namespace MarkupOutline.Markup

/-- A tag that is open: the number of the part it made, if any, and whether it opens a definition
block. -/
structure OpenTag where
  tag : String
  part : Option Nat
  isDefinition : Bool
deriving DecidableEq, Repr

/-- What has been assembled: the open tags, innermost first, the parts, the numbers of those that
stand inside no other, how many definition blocks are open, and the notices, last first. -/
structure Assembly where
  openTags : List OpenTag
  parts : Array Part
  roots : Array Nat
  definitions : Int
  notices : List Notice
deriving DecidableEq, Repr

/-- The parts with the end of the part that an open tag made, if any, moved to `p`. -/
def OpenTag.endAt (p : Position) (o : OpenTag) (parts : Array Part) : Array Part :=
  match o.part with
  | some number => parts.modify number (Part.endAt p)
  | none => parts

namespace Assembly

/-- Nothing assembled yet. -/
def empty : Assembly :=
  ⟨[], #[], #[], 0, []⟩

/-- The innermost part that is open. Property elements and definition blocks stand among the open
tags without a part. -/
def parent? (a : Assembly) : Option Nat :=
  a.openTags.findSome? (·.part)

/-- Adds a part inside the innermost one that is open, or as a root. -/
def add (a : Assembly) (s : Sketch) : Assembly :=
  let number := a.parts.size
  match a.parent? with
  | some parent =>
    { a with parts := (a.parts.push ⟨s, #[]⟩).modify parent (Part.addChild number) }
  | none => { a with parts := a.parts.push ⟨s, #[]⟩, roots := a.roots.push number }

/-- Whether a start tag makes a part here. -/
def shows (a : Assembly) (tag : String) : Bool :=
  a.definitions == 0 && !Name.isDotted tag && !isDefinitionTag tag

/-- Puts a tag on top of the open ones. -/
def push (a : Assembly) (o : OpenTag) : Assembly :=
  { a with openTags := o :: a.openTags, definitions := a.definitions + o.isDefinition.toNat }

/-- Takes in a start tag. One that is closed by itself is finished at once; one that does not end
stays open like any other. -/
def start (a : Assembly) (tag : StartTag) : Assembly :=
  let shown := a.shows tag.name
  let part := if shown then some a.parts.size else none
  let a := if shown then a.add tag.sketch else a
  if tag.ending = .closed then a else a.push ⟨tag.name, part, isDefinitionTag tag.name⟩

/-- Closes the innermost open tag `o`, with `rest` around it, at `p`. -/
def closeInnermost (a : Assembly) (o : OpenTag) (rest : List OpenTag) (p : Position) : Assembly :=
  { a with
    openTags := rest
    parts := o.endAt p a.parts
    definitions := a.definitions - o.isDefinition.toNat }

/-- The mismatch that a token makes here: an end tag whose name is not that of the innermost open
tag. -/
def mismatch? (a : Assembly) : Token → Option Mismatch
  | .endTag name p => do
    let o ← a.openTags.head?
    if o.tag = name then none else some ⟨o.tag, name, p.line⟩
  | _ => none

/-- Takes in an end tag that ends at `p`. The innermost tag is closed whatever its name. -/
def finish (a : Assembly) (name : String) (p : Position) : Assembly :=
  match a.openTags with
  | [] => { a with notices := .unmatched name p.line :: a.notices }
  | o :: rest => a.closeInnermost o rest p

/-- Takes in one token, and takes note of a mismatch. -/
def step (a : Assembly) (token : Token) : Assembly :=
  let a := match a.mismatch? token with
    | some m => { a with notices := .mismatched m :: a.notices }
    | none => a
  match token with
  | .startTag tag => a.start tag
  | .endTag name p => a.finish name p
  | .aside _ => a
  | .stray => a

/-- Closes all open tags at the end `p` of the text. -/
def closeAll (a : Assembly) (p : Position) : Assembly :=
  { a with
    openTags := []
    parts := a.openTags.foldr (OpenTag.endAt p) a.parts
    definitions := 0 }

/-- The forest assembled when the text ends at `p`. -/
def forest (a : Assembly) (p : Position) : Except Flaw (Forest Element) :=
  buildForest (a.closeAll p).parts a.roots

end Assembly

/-! ## Reading a document -/

/-- What reading a document gives: a forest or a failure, and the notices in order. -/
structure Reading where
  outcome : Except Failure (Forest Element)
  notices : List Notice

/-- Assembles the tokens that are left and closes what is open at the end of the text. A strict
assembly stops at the first mismatch. -/
def assemble (strict : Bool) (lines : Nat) (stop : Position) (a : Assembly) : List Token → Reading
  | [] =>
    match a.forest stop with
    | .ok forest =>
      ⟨.ok forest, (Notice.finished a.parts.size lines forest.length :: a.notices).reverse⟩
    | .error flaw => ⟨.error (.interrupted flaw.message), a.notices.reverse⟩
  | token :: rest =>
    match if strict then a.mismatch? token else none with
    | some m => ⟨.error (.mismatch m), a.notices.reverse⟩
    | none => assemble strict lines stop (a.step token) rest

/-- An assembly that is not strict takes in every token. -/
theorem assemble_false_cons (lines : Nat) (stop : Position) (a : Assembly) (token : Token)
    (rest : List Token) :
    assemble false lines stop a (token :: rest) = assemble false lines stop (a.step token) rest :=
  rfl

/-- A strict assembly takes in a token that makes no mismatch. -/
theorem assemble_true_cons (lines : Nat) (stop : Position) (a : Assembly) (token : Token)
    (rest : List Token) :
    assemble true lines stop a (token :: rest) =
      match a.mismatch? token with
      | some m => ⟨.error (.mismatch m), a.notices.reverse⟩
      | none => assemble true lines stop (a.step token) rest :=
  rfl

/-- Reads the lines of a document; a strict reading fails at the first end tag that does not
match. -/
def read (strict : Bool) (text : String) : Reading :=
  let lines := Text.lines text.toList
  assemble strict lines.length (Text.lastPlace lines) .empty (LineCursor.tokens (.ofLines lines))

/-- A way of reading documents, strictly or not. -/
abbrev Reader := Bool → String → Reading

/-- The reader that breaks off before it reads anything. -/
def brokenReader (reason : String) : Reader :=
  fun _ _ => ⟨.error (.interrupted reason), []⟩

/-- The reader that breaks off after it has read what it can. -/
def breakingOff (reason : String) (reader : Reader) : Reader := fun strict text =>
  let reading := reader strict text
  match reading.outcome with
  | .ok _ => ⟨.error (.interrupted reason), reading.notices⟩
  | .error _ => reading

/-- The elements of a document, read without strictness; such a reading does not fail. -/
def Reading.forest (r : Reading) : Forest Element :=
  match r.outcome with
  | .ok forest => forest
  | .error _ => []

end MarkupOutline.Markup
