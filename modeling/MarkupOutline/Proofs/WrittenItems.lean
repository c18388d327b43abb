import MarkupOutline.Proofs.ServiceAnswers
import MarkupOutline.Proofs.Views

/-!
# Outlines and listings as they are written

What the items of a written outline and of a written listing hold, field by field. The items of an
outline lie within each other, under the field `children` (`Json.Preorder`); brought into
depth-first pre-order they correspond to the items of the listing one to one (`forall₂_sameItem`),
and the last one whose range contains a position is written from the last such symbol
(`getLast?_symbolsAt_of_items`).
-/

namespace MarkupOutline

/-! ## Reading items -/

namespace Json

/-- `items` are the given values and the ones under their field `children`, in depth-first
pre-order, each with its depth. -/
inductive Preorder : Nat → List Json → List (Nat × Json) → Prop where
  | nil (depth : Nat) : Preorder depth [] []
  | cons {depth : Nat} {value : Json} {below beside : List Json} {inner outer : List (Nat × Json)} :
    value.field? "children" = some (.array below) → Preorder (depth + 1) below inner →
      Preorder depth beside outer →
        Preorder depth (value :: beside) ((depth, value) :: (inner ++ outer))

/-- There is only one way to bring values into order. -/
theorem Preorder.unique {depth : Nat} {values : List Json} {items others : List (Nat × Json)}
    (h : Preorder depth values items) (h' : Preorder depth values others) : items = others := by
  induction h generalizing others with
  | nil depth => cases h'; rfl
  | cons hchildren _ _ hinner houter =>
    cases h' with
    | cons hchildren' hinner' houter' =>
      rw [hchildren, Option.some.injEq, array.injEq] at hchildren'
      rw [hinner (hchildren' ▸ hinner'), houter houter']

/-- A value gives a range with the bounds `start` and `stop`. -/
def HasRange (start stop : Position) (value : Json) : Prop :=
  value.field? "range" = some (.object
    [("start", .array [.integer start.line, .integer start.column]),
     ("end", .array [.integer stop.line, .integer stop.column])])

/-- The range that a value gives contains a position. -/
def Covers (p : Position) (value : Json) : Prop :=
  ∃ start stop : Position, value.HasRange start stop ∧ start ≤ p ∧ p < stop

end Json

/-- An item of an outline, with its depth, and an item of a listing show the same. -/
structure SameItem (lineNumbers : Bool) (symbol : Nat × Json) (entry : Json) : Prop where
  name : ∃ name, symbol.2.field? "name" = some (.string name) ∧
    entry.field? "label" = some (.string name)
  kind : ∃ kind, symbol.2.field? "kind" = some (.string kind) ∧
    entry.field? "kind" = some (.string kind)
  depth : entry.field? "depth" = some (.integer symbol.1)
  line : ∃ start stop : Position, symbol.2.HasRange start stop ∧
    entry.field? "line" = some (.integer (start.line + 1))
  detail : ∃ tag line, entry.field? "tag_name" = some (.string tag) ∧
    entry.field? "line" = some (.integer line) ∧
    symbol.2.field? "detail" =
      some (.string (tag ++ if lineNumbers then " (line " ++ toString line ++ ")" else ""))

/-- An element as it is written is the one that the outline shows at a position: the one of the last
item whose range contains the position, and no element if there is no such item. -/
structure Points (items : List (Nat × Json)) (p : Position) (element : Json) : Prop where
  null_iff : element = .null ↔ ∀ item ∈ items, ¬ item.2.Covers p
  shown : ∀ before item after, items = before ++ item :: after → item.2.Covers p →
    (∀ later ∈ after, ¬ later.2.Covers p) →
      element.field? "label" = item.2.field? "name" ∧
      element.field? "kind" = item.2.field? "kind" ∧
      element.field? "span" = item.2.field? "range"

/-! ## Writing items -/

namespace Encoding

/-- The items of an outline as it is written. -/
def symbolItems (depth : Nat) (outline : Forest Outline.Symbol) : List (Nat × Json) :=
  (Forest.walkFrom depth outline).map fun x =>
    (x.1, symbol x.2.value (Forest.fold symbol x.2.children))

/-- Written symbols lie within each other as the symbols do. -/
theorem preorder_symbolItems (outline : Forest Outline.Symbol) (depth : Nat) :
    Json.Preorder depth (Forest.fold symbol outline) (symbolItems depth outline) := by
  induction outline using Forest.induct generalizing depth with
  | nil =>
    rw [Forest.fold_nil, symbolItems, Forest.walkFrom_nil]
    exact .nil depth
  | cons t ts below beside =>
    rw [Forest.fold_cons, symbolItems, Forest.walkFrom_cons, List.map_cons, List.map_append]
    exact .cons rfl (below (depth + 1)) (beside depth)

theorem covers_symbol {p : Position} {s : Outline.Symbol} {below : List Json} :
    (symbol s below).Covers p ↔ p ∈ s.range := by
  constructor
  · rintro ⟨start, stop, hrange, hstart, hstop⟩
    have hspan : (symbol s below).field? "range" = some (span s.range) := rfl
    rw [Json.HasRange, hspan] at hrange
    simp only [span, position, Option.some.injEq, Json.object.injEq, List.cons.injEq,
      Prod.mk.injEq, Json.array.injEq, Json.integer.injEq, and_true, true_and] at hrange
    obtain ⟨⟨hstartLine, hstartColumn⟩, hstopLine, hstopColumn⟩ := hrange
    rw [Span.mem_def, Position.le_def, Position.lt_def, hstartLine, hstartColumn, hstopLine,
      hstopColumn]
    exact ⟨hstart, hstop⟩
  · intro h
    exact ⟨s.range.start, s.range.stop, rfl, h.1, h.2⟩

/-- The outline and the listing of a forest are written one by one the same. -/
theorem forall₂_sameItem (lineNumbers : Bool) (forest : Forest Element) :
    List.Forall₂ (SameItem lineNumbers) (symbolItems 0 (Outline.ofForest lineNumbers forest))
      ((Listing.ofForest forest).map entry) := by
  rw [Outline.ofForest_eq_map, symbolItems, Forest.walkFrom_map, Listing.ofForest, Forest.walk,
    List.forall₂_map_left_iff, List.forall₂_map_left_iff, List.forall₂_map_right_iff,
    List.forall₂_map_right_iff, List.forall₂_same]
  rintro ⟨depth, t⟩ _
  have hdetail := (Outline.shows_ofElement lineNumbers t.value).detail
  exact {
    name := ⟨_, rfl, rfl⟩
    kind := ⟨_, rfl, rfl⟩
    depth := rfl
    line := ⟨t.value.span.start, t.value.span.stop, rfl, rfl⟩
    detail := ⟨_, _, rfl, rfl, congrArg (fun detail => some (Json.string detail)) hdetail⟩ }

/-- The symbols of an outline whose ranges contain a position, in depth-first pre-order. -/
def symbolsAt (p : Position) (outline : Forest Outline.Symbol) : List Outline.Symbol :=
  (Forest.values outline).filter fun s => p ∈ s.range

/-- No symbol has a position in its range exactly if no item has. -/
theorem symbolsAt_eq_nil_iff {p : Position} {outline : Forest Outline.Symbol} :
    symbolsAt p outline = [] ↔ ∀ item ∈ symbolItems 0 outline, ¬ item.2.Covers p := by
  rw [symbolsAt, List.filter_eq_nil_iff, Forest.values, symbolItems, List.forall_mem_map,
    List.forall_mem_map]
  refine forall₂_congr fun x _ => ?_
  rw [decide_eq_true_eq, covers_symbol]

/-- The last item that has a position in its range is written from the last such symbol. -/
theorem getLast?_symbolsAt_of_items {p : Position} {outline : Forest Outline.Symbol}
    {before after : List (Nat × Json)} {item : Nat × Json}
    (h : symbolItems 0 outline = before ++ item :: after) (hcovers : item.2.Covers p)
    (hlast : ∀ later ∈ after, ¬ later.2.Covers p) :
    ∃ s below, (symbolsAt p outline).getLast? = some s ∧ item.2 = symbol s below := by
  rw [symbolItems, List.map_eq_append_iff] at h
  obtain ⟨walked, rest, hwalk, -, hrest⟩ := h
  rw [List.map_eq_cons_iff] at hrest
  obtain ⟨x, later, rfl, rfl, rfl⟩ := hrest
  refine ⟨x.2.value, _, ?_, rfl⟩
  have hx : p ∈ x.2.value.range := covers_symbol.1 hcovers
  have hnone : ((later.map (·.2.value)).filter fun s => p ∈ s.range) = [] := by
    rw [List.filter_eq_nil_iff, List.forall_mem_map]
    intro y hy
    rw [decide_eq_true_eq, ← covers_symbol]
    exact hlast _ (List.mem_map_of_mem hy)
  rw [symbolsAt, Forest.values, Forest.walk, hwalk, List.map_append, List.map_cons,
    List.filter_append, List.filter_cons_of_pos (by simpa using hx), hnone, List.getLast?_concat]

end Encoding

end MarkupOutline
