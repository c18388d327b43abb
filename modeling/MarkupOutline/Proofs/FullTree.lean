import MarkupOutline.Definition
import MarkupOutline.Markup.Part
import MarkupOutline.Proofs.Nest

/-!
# The full tree

The plain way to the forest of a text: first make a node of every start tag, whatever its name
(`fullTree`), then take the definition blocks away with all they contain and let the content of
property elements take their place (`prune`).
-/

namespace MarkupOutline

open Forest

universe u

variable {α : Type u}

/-! ## Pruning -/

/-- A forest made again from its leaves up: `f` says which trees take the place of a value, given
what has become of the trees below it. -/
def Forest.rebuild (f : α → Forest α → Forest α) (ts : Forest α) : Forest α :=
  (fold (fun a below => f a (List.flatten below)) ts).flatten

@[simp]
theorem Forest.rebuild_nil (f : α → Forest α → Forest α) : rebuild f [] = [] := by
  simp [rebuild]

@[simp]
theorem Forest.rebuild_cons (f : α → Forest α → Forest α) (t : Tree α) (ts : Forest α) :
    rebuild f (t :: ts) = f t.value (rebuild f t.children) ++ rebuild f ts := by
  simp [rebuild]

namespace Markup

/-- The forest without the definition blocks and all they contain. -/
def dropDefinitions (ts : Forest Sketch) : Forest Sketch :=
  rebuild (fun s below => if isDefinitionTag s.tag then [] else [⟨s, below⟩]) ts

/-- The forest with every property element replaced by its children. -/
def spliceProperties (ts : Forest Sketch) : Forest Sketch :=
  rebuild (fun s below => if Name.isDotted s.tag then below else [⟨s, below⟩]) ts

/-- What a full forest shows: definition blocks are taken away first, then the property elements
that are left are replaced by their children. -/
def prune (ts : Forest Sketch) : Forest Sketch :=
  spliceProperties (dropDefinitions ts)

/-- Whether a tag makes a part of its own. -/
def isShownTag (tag : String) : Bool :=
  !isDefinitionTag tag && !Name.isDotted tag

@[simp]
theorem prune_nil : prune [] = [] := by
  simp [prune, dropDefinitions, spliceProperties]

/-- What becomes of the first tree of a forest depends on its tag. -/
theorem prune_cons (t : Tree Sketch) (ts : Forest Sketch) :
    prune (t :: ts) =
      (if isDefinitionTag t.value.tag then []
        else if Name.isDotted t.value.tag then prune t.children
        else [⟨t.value, prune t.children⟩]) ++ prune ts := by
  unfold prune dropDefinitions
  rw [rebuild_cons]
  by_cases hdef : isDefinitionTag t.value.tag
  · simp [hdef]
  · by_cases hdot : Name.isDotted t.value.tag
    · simp [hdef, hdot, spliceProperties]
    · simp [hdef, hdot, spliceProperties]

theorem prune_append (ss ts : Forest Sketch) : prune (ss ++ ts) = prune ss ++ prune ts := by
  induction ss with
  | nil => simp
  | cons s ss ih => rw [List.cons_append, prune_cons, prune_cons, ih, List.append_assoc]

/-- What becomes of a single tree. -/
theorem prune_single (s : Sketch) (below : Forest Sketch) :
    prune [⟨s, below⟩] =
      if isDefinitionTag s.tag then []
      else if Name.isDotted s.tag then prune below
      else [⟨s, prune below⟩] := by
  rw [prune_cons, prune_nil, List.append_nil]

/-- A leaf stays if its tag makes a part, and leaves nothing behind otherwise. -/
theorem prune_leaf (s : Sketch) :
    prune [⟨s, []⟩] = if isShownTag s.tag then [⟨s, []⟩] else [] := by
  rw [prune_single, isShownTag]
  cases isDefinitionTag s.tag <;> cases Name.isDotted s.tag <;> simp

/-! ## All start tags -/

/-- Takes a token into a nest of all start tags. A start tag that is not closed by itself becomes
the innermost open element; an end tag closes the innermost open element, whatever its name, and is
ignored when nothing is open. -/
def fullStep (n : Nest Sketch) : Token → Nest Sketch
  | .startTag tag =>
    if tag.ending = .closed then n.add [⟨tag.sketch, []⟩] else n.enter tag.sketch
  | .endTag _ p => n.leave (Sketch.endAt p)
  | .aside _ => n
  | .stray => n

/-- The nest of all start tags after the given tokens. -/
def fullNest (n : Nest Sketch) (tokens : List Token) : Nest Sketch :=
  tokens.foldl fullStep n

/-- The full tree of a text that ends at `stop`: a node for every start tag; what is still open at
the end of the text ends there. -/
def fullTree (stop : Position) (tokens : List Token) : Forest Sketch :=
  (fullNest .empty tokens).whole (Sketch.endAt stop)

/-- The place at which a text ends. -/
def endOf (text : String) : Position :=
  (Cursor.ofText text.toList).atEnd.position

/-- The tokens of a text. -/
def tokensOf (text : String) : List Token :=
  Token.readAll (Cursor.ofText text.toList)

/-- The full tree of a text. -/
def fullTreeOf (text : String) : Forest Sketch :=
  fullTree (endOf text) (tokensOf text)

end Markup

end MarkupOutline
