import Mathlib.Data.List.Forall2
import MarkupOutline.Listing
import MarkupOutline.Outline
import MarkupOutline.Tree.Walk

/-!
# Views of a forest

Outline, walk, count and listing are computed with lists of work, and yet each is what plain
recursion on the forest makes of it (`views_agree`). The walk shows the shape of the forest by the
depths alone: what stands below a value is the run of greater depths behind it
(`eq_of_marks_eq`), so a listing loses nothing of what it shows.
-/

namespace MarkupOutline

universe u v

variable {α : Type u} {β : Type v}

/-! ## Recursion on a forest -/

mutual

/-- The subtrees of a tree at the given depth, with their depths, in depth-first pre-order. -/
def Tree.preorder (depth : Nat) : Tree α → List (Nat × Tree α)
  | ⟨a, below⟩ => (depth, ⟨a, below⟩) :: Forest.preorder (depth + 1) below

/-- The subtrees of the trees at the given depth, with their depths, in depth-first pre-order. -/
def Forest.preorder (depth : Nat) : List (Tree α) → List (Nat × Tree α)
  | [] => []
  | t :: ts => t.preorder depth ++ Forest.preorder depth ts

end

mutual

/-- The tree of the same shape with `f` applied to every value. -/
def Tree.relabel (f : α → β) : Tree α → Tree β
  | ⟨a, below⟩ => ⟨f a, Forest.relabel f below⟩

/-- The forest of the same shape with `f` applied to every value. -/
def Forest.relabel (f : α → β) : List (Tree α) → List (Tree β)
  | [] => []
  | t :: ts => t.relabel f :: Forest.relabel f ts

end

namespace Forest

theorem walkFrom_eq_preorder (depth : Nat) (ts : Forest α) :
    walkFrom depth ts = preorder depth ts := by
  induction ts using induct generalizing depth with
  | nil => rw [walkFrom_nil, preorder]
  | cons t ts below beside =>
    obtain ⟨a, inside⟩ := t
    rw [walkFrom_cons, preorder, Tree.preorder, below, beside, List.cons_append]

theorem map_eq_relabel (f : α → β) (ts : Forest α) : map f ts = relabel f ts := by
  induction ts using induct with
  | nil => rw [map_nil, relabel]
  | cons t ts below beside =>
    obtain ⟨a, inside⟩ := t
    rw [map_cons, relabel, Tree.relabel, below, beside]

/-! ## The shape of a walk -/

/-- The values of a forest with their depths, in depth-first pre-order. -/
def marks (depth : Nat) (ts : Forest α) : List (Nat × α) :=
  (walkFrom depth ts).map fun (k, t) => (k, t.value)

@[simp]
theorem marks_nil (depth : Nat) : marks depth ([] : Forest α) = [] := by
  simp [marks]

@[simp]
theorem marks_cons (depth : Nat) (t : Tree α) (ts : Forest α) :
    marks depth (t :: ts) =
      (depth, t.value) :: (marks (depth + 1) t.children ++ marks depth ts) := by
  simp [marks]

theorem marks_map (f : α → β) (depth : Nat) (ts : Forest α) :
    marks depth (map f ts) = (marks depth ts).map fun (k, a) => (k, f a) := by
  rw [marks, walkFrom_map, marks, List.map_map, List.map_map]
  rfl

/-- No mark stands higher than the roots. -/
theorem le_of_mem_marks {depth : Nat} {ts : Forest α} {m : Nat × α} (h : m ∈ marks depth ts) :
    depth ≤ m.1 := by
  induction ts using induct generalizing depth with
  | nil => simp at h
  | cons t ts below beside =>
    rw [marks_cons, List.mem_cons, List.mem_append] at h
    rcases h with rfl | h | h
    · exact Nat.le_refl depth
    · have hbelow := below h
      omega
    · exact beside h

/-- What stands below a value ends where the depths come back. -/
theorem takeWhile_marks (depth : Nat) (below beside : Forest α) :
    (marks (depth + 1) below ++ marks depth beside).takeWhile (depth < ·.1) =
      marks (depth + 1) below := by
  have hdeeper : ∀ m ∈ marks (depth + 1) below, decide (depth < m.1) = true := by
    intro m hm
    have hle := le_of_mem_marks hm
    exact decide_eq_true (by omega)
  rw [List.takeWhile_append_of_pos hdeeper]
  cases beside with
  | nil => rw [marks_nil, List.takeWhile_nil, List.append_nil]
  | cons t ts => rw [marks_cons, List.takeWhile_cons_of_neg (by simp), List.append_nil]

/-- A forest can be told by its values and their depths. -/
theorem eq_of_marks_eq {depth : Nat} {ss ts : Forest α} (h : marks depth ss = marks depth ts) :
    ss = ts := by
  induction ss using induct generalizing depth ts with
  | nil =>
    cases ts with
    | nil => rfl
    | cons t ts => simp at h
  | cons s ss below beside =>
    cases ts with
    | nil => simp at h
    | cons t ts =>
      rw [marks_cons, marks_cons, List.cons.injEq, Prod.mk.injEq] at h
      obtain ⟨⟨_, hvalue⟩, hbehind⟩ := h
      have hinside : marks (depth + 1) s.children = marks (depth + 1) t.children := by
        rw [← takeWhile_marks depth s.children ss, hbehind, takeWhile_marks]
      rw [hinside, List.append_cancel_left_eq] at hbehind
      have hfirst : s = t := by
        cases s
        cases t
        rw [Tree.mk.injEq]
        exact ⟨hvalue, below hinside⟩
      rw [hfirst, beside hbehind]

end Forest

open Forest

/-! ## Outlines -/

/-- What an outline has to show of an element: its label, its tag with the number of its line if
asked for, its kind, its span, and the place of its tag behind the `<`, whose bounds make a span. -/
structure Outline.Shows (lineNumbers : Bool) (e : Element) (s : Outline.Symbol) : Prop where
  name : s.name = e.label
  detail : s.detail = e.tag ++
    if lineNumbers then " (line " ++ toString (e.span.start.line + 1) ++ ")" else ""
  kind : s.kind = e.kind
  range : s.range = e.span
  selection : Span.ofBounds ⟨e.span.start.line, e.span.start.column + 1⟩
    ⟨e.span.start.line, e.span.start.column + 1 + e.tag.length⟩ = .ok s.selection

theorem Outline.shows_ofElement (lineNumbers : Bool) (e : Element) :
    Shows lineNumbers e (Symbol.ofElement lineNumbers e) where
  name := rfl
  detail := by
    cases lineNumbers with
    | false => exact String.append_empty.symm
    | true =>
      show e.tag ++ " (line " ++ toString e.lineNumber ++ ")" = _
      rw [String.append_assoc, String.append_assoc]
      rfl
  kind := rfl
  range := rfl
  selection := dif_pos (selectionOf e).start_le_stop

/-! ## Listings -/

/-- What a listing shows of an element. -/
def Listing.gist (e : Element) : String × String × Kind × Int :=
  (e.label, e.tag, e.kind, e.span.start.line)

/-- A forest is listed exactly if its lines are counted from 0. -/
theorem Listing.ofForest?_eq_ok_iff {forest : Forest Element} {entries : List Listing.Entry} :
    Listing.ofForest? forest = .ok entries ↔
      (∀ e ∈ values forest, 0 ≤ e.span.start.line) ∧ Listing.ofForest forest = entries := by
  have hlines : (Listing.ofForest forest).all (fun entry => 1 ≤ entry.line) = true ↔
      ∀ e ∈ values forest, 0 ≤ e.span.start.line := by
    rw [List.all_eq_true, Listing.ofForest, values, List.forall_mem_map, List.forall_mem_map]
    refine forall₂_congr fun x _ => ?_
    rw [decide_eq_true_iff]
    show 1 ≤ x.2.value.span.start.line + 1 ↔ _
    omega
  unfold Listing.ofForest?
  dsimp only
  rw [← hlines]
  split
  · next hall => simp [hall]
  · next hall => simp [hall]

/-- A listing tells the shape of its forest and what it shows of the elements. -/
theorem Listing.map_gist_eq {forest other : Forest Element}
    (h : Listing.ofForest forest = Listing.ofForest other) :
    Forest.map gist forest = Forest.map gist other := by
  have hmarks : ∀ forest : Forest Element, marks 0 (Forest.map gist forest) =
      (Listing.ofForest forest).map fun entry =>
        (entry.depth, entry.label, entry.tag, entry.kind, entry.line - 1) := by
    intro forest
    rw [marks_map, marks, Listing.ofForest, walk, List.map_map, List.map_map]
    apply List.map_congr_left
    intro x _
    show (x.1, gist x.2.value) = (x.1, x.2.value.label, x.2.value.tag, x.2.value.kind,
      x.2.value.span.start.line + 1 - 1)
    rw [Int.add_sub_cancel, gist]
  have hsame : marks 0 (Forest.map gist forest) = marks 0 (Forest.map gist other) := by
    rw [hmarks, hmarks, h]
  exact eq_of_marks_eq hsame

/-! ## All views together -/

/-- All views of a forest agree, whatever its spans. The outline is the forest with every element
mapped to its symbol, which shows the element; the walks of both correspond one to one, at the same
depths; the walk is the recursive depth-first pre-order, and the count its length. The forest has a
listing exactly if its lines are counted from 0, and then no other forest has the same one, unless
it has the same shape and the same labels, tags, kinds and lines. -/
theorem views_agree (lineNumbers : Bool) (forest : Forest Element) :
    Outline.ofForest lineNumbers forest =
        Forest.relabel (Outline.Symbol.ofElement lineNumbers) forest ∧
      List.Forall₂ (fun x y => x.1 = y.1 ∧ Outline.Shows lineNumbers x.2.value y.2.value)
        (walk forest) (walk (Outline.ofForest lineNumbers forest)) ∧
      walk forest = preorder 0 forest ∧
      count forest = (preorder 0 forest).length ∧
      ((∃ entries, Listing.ofForest? forest = .ok entries) ↔
        ∀ e ∈ values forest, 0 ≤ e.span.start.line) ∧
      ∀ other entries, Listing.ofForest? forest = .ok entries →
        Listing.ofForest? other = .ok entries →
          Forest.map Listing.gist forest = Forest.map Listing.gist other := by
  rw [Outline.ofForest_eq_map]
  refine ⟨map_eq_relabel _ _, ?_, walkFrom_eq_preorder 0 forest, ?_, ?_, ?_⟩
  · rw [walk, walk, walkFrom_map, List.forall₂_map_right_iff, List.forall₂_same]
    intro x _
    exact ⟨rfl, Outline.shows_ofElement lineNumbers x.2.value⟩
  · rw [← walkFrom_eq_preorder]
    rfl
  · simp [Listing.ofForest?_eq_ok_iff]
  · intro other entries hforest hother
    rw [Listing.ofForest?_eq_ok_iff] at hforest hother
    exact Listing.map_gist_eq (hforest.2.trans hother.2.symm)

end MarkupOutline
