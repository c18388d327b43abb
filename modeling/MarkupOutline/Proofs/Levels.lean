import MarkupOutline.Encoding
import MarkupOutline.Tree.Walk

/-!
# Levels of a forest

The height of a forest is counted along its walk, and it is the number of levels that plain
recursion finds (`height_eq_levels`). An outline has as many levels as its forest, and no subtree
has more. The levels alone tell whether an outline or an element is written.
-/

namespace MarkupOutline

universe u v

variable {α : Type u} {β : Type v}

mutual

/-- The number of levels of a tree. -/
def Tree.levels : Tree α → Nat
  | ⟨_, below⟩ => 1 + Forest.levels below

/-- The number of levels of a forest. -/
def Forest.levels : List (Tree α) → Nat
  | [] => 0
  | t :: ts => max t.levels (Forest.levels ts)

end

theorem Tree.levels_eq (t : Tree α) : t.levels = 1 + Forest.levels t.children := by
  cases t
  rw [Tree.levels]

namespace Forest

@[simp]
theorem levels_nil : levels ([] : Forest α) = 0 := by
  rw [levels]

@[simp]
theorem levels_cons (t : Tree α) (ts : Forest α) :
    levels (t :: ts) = max t.levels (levels ts) := by
  rw [levels]

theorem levels_singleton (t : Tree α) : levels [t] = t.levels := by
  rw [levels_cons, levels_nil, Nat.max_zero]

/-- The count goes on from the levels known, which reach down to the trees still to come. -/
theorem foldl_walkFrom_eq_max {depth known : Nat} (ts : Forest α) (h : depth ≤ known) :
    (walkFrom depth ts).foldl (fun height x => max height (x.1 + 1)) known =
      max known (depth + levels ts) := by
  induction ts using induct generalizing depth known with
  | nil => rw [walkFrom_nil, List.foldl_nil, levels_nil, Nat.add_zero, Nat.max_eq_left h]
  | cons t ts below beside =>
    have hbelow := below (Nat.le_max_right known (depth + 1))
    have hbeside : depth ≤ max (max known (depth + 1)) (depth + 1 + levels t.children) := by
      omega
    rw [walkFrom_cons, List.foldl_cons, List.foldl_append, hbelow, beside hbeside, levels_cons,
      t.levels_eq]
    omega

/-- The height is the number of levels. -/
theorem height_eq_levels (ts : Forest α) : height ts = levels ts := by
  have hcount : height ts = (walkFrom 0 ts).foldl (fun height x => max height (x.1 + 1)) 0 := rfl
  rw [hcount, foldl_walkFrom_eq_max ts (Nat.le_refl 0), Nat.zero_max, Nat.zero_add]

theorem levels_map (f : α → β) (ts : Forest α) : levels (map f ts) = levels ts := by
  induction ts using induct with
  | nil => rw [map_nil, levels_nil, levels_nil]
  | cons t ts below beside =>
    rw [map_cons, levels_cons, levels_cons, Tree.levels_eq, t.levels_eq, below, beside]

/-- A subtree has no more levels than the forest that it stands in. -/
theorem levels_le_of_mem_subtrees {t : Tree α} {ts : Forest α} (h : t ∈ subtrees ts) :
    t.levels ≤ levels ts := by
  induction ts using induct with
  | nil => simp at h
  | cons s ss below beside =>
    rw [levels_cons, s.levels_eq]
    rw [subtrees_cons, List.mem_cons, List.mem_append] at h
    rcases h with rfl | h | h
    · rw [t.levels_eq]
      omega
    · have hbelow := below h
      omega
    · have hbeside := beside h
      omega

end Forest

/-- The outline of a forest has the same levels. -/
theorem Outline.levels_ofForest (lineNumbers : Bool) (forest : Forest Element) :
    Forest.levels (ofForest lineNumbers forest) = Forest.levels forest := by
  rw [ofForest_eq_map, Forest.levels_map]

/-! ## What is written -/

theorem Encoding.outline?_eq (outline : Forest Outline.Symbol) :
    outline? outline =
      if Forest.levels outline ≤ maxOutlineLevels then some (.array (Forest.fold symbol outline))
      else none := by
  rw [outline?, Forest.height_eq_levels]

theorem Encoding.element?_eq (maxLevels : Nat) (t : Tree Element) :
    element? maxLevels t =
      if t.levels ≤ maxLevels then some (element t.value (Forest.fold element t.children))
      else none := by
  rw [element?, Forest.height_eq_levels, Forest.levels_singleton, Forest.fold_cons]
  rfl

end MarkupOutline
