/-!
# Trees and forests

A `Tree` is a value with an ordered list of subtrees, a forest an ordered list of trees. The one
view of a forest is its `walk`: every subtree with its depth, in depth-first pre-order. Forests may
be very deep, so the walk keeps its own list of work and never nests calls.
-/

namespace MarkupOutline

universe u v

/-- A value and the trees below it. -/
structure Tree (α : Type u) where
  value : α
  children : List (Tree α)
deriving Repr

/-- Trees side by side. -/
abbrev Forest (α : Type u) := List (Tree α)

variable {α : Type u} {β : Type v}

/-! ## Equality -/

mutual

/-- Decides whether two trees are equal. -/
def Tree.decEq [DecidableEq α] : ∀ s t : Tree α, Decidable (s = t)
  | ⟨a, as⟩, ⟨b, bs⟩ =>
    if hab : a = b then
      match Forest.decEq as bs with
      | isTrue h => isTrue (by rw [hab, h])
      | isFalse h => isFalse fun heq => h (Tree.mk.inj heq).2
    else isFalse fun heq => hab (Tree.mk.inj heq).1

/-- Decides whether two forests are equal. -/
def Forest.decEq [DecidableEq α] : ∀ ss ts : List (Tree α), Decidable (ss = ts)
  | [], [] => isTrue rfl
  | [], _ :: _ => isFalse (by simp)
  | _ :: _, [] => isFalse (by simp)
  | s :: ss, t :: ts =>
    match Tree.decEq s t, Forest.decEq ss ts with
    | isTrue h, isTrue hs => isTrue (by rw [h, hs])
    | isFalse h, _ => isFalse fun heq => h (List.cons.inj heq).1
    | _, isFalse hs => isFalse fun heq => hs (List.cons.inj heq).2

end

instance [DecidableEq α] : DecidableEq (Tree α) := Tree.decEq

/-! ## Size -/

mutual

/-- The number of values in a tree. -/
def Tree.size : Tree α → Nat
  | ⟨_, ts⟩ => 1 + Forest.size ts

/-- The number of values in a forest. -/
def Forest.size : List (Tree α) → Nat
  | [] => 0
  | t :: ts => t.size + Forest.size ts

end

@[simp]
theorem Forest.size_nil : Forest.size ([] : List (Tree α)) = 0 := by
  simp [Forest.size]

@[simp]
theorem Forest.size_cons (t : Tree α) (ts : List (Tree α)) :
    Forest.size (t :: ts) = t.size + Forest.size ts := by
  simp [Forest.size]

@[simp]
theorem Forest.size_append (ss ts : List (Tree α)) :
    Forest.size (ss ++ ts) = Forest.size ss + Forest.size ts := by
  induction ss with
  | nil => simp
  | cons s ss ih => simp [ih, Nat.add_assoc]

theorem Tree.size_eq (t : Tree α) : t.size = 1 + Forest.size t.children := by
  cases t
  simp [Tree.size]

/-! ## The walk -/

namespace Forest

/-- The trees of a forest, all at one depth. -/
def atDepth (depth : Nat) (ts : Forest α) : List (Nat × Tree α) :=
  ts.map fun t => (depth, t)

@[simp]
theorem map_snd_atDepth (depth : Nat) (ts : Forest α) : (atDepth depth ts).map (·.2) = ts := by
  simp [atDepth, Function.comp_def]

/-- Appends to `done` the walk of the trees still to be visited, each with its depth. -/
def walkOnto (done : Array (Nat × Tree α)) : List (Nat × Tree α) → Array (Nat × Tree α)
  | [] => done
  | (depth, t) :: rest => walkOnto (done.push (depth, t)) (atDepth (depth + 1) t.children ++ rest)
termination_by work => size (work.map (·.2))
decreasing_by
  have := t.size_eq
  simp only [List.map_append, map_snd_atDepth, List.map_cons, size_append, size_cons]
  omega

/-- Every subtree with its depth, in depth-first pre-order; the roots have the given depth. -/
def walkFrom (depth : Nat) (ts : Forest α) : List (Nat × Tree α) :=
  (walkOnto #[] (atDepth depth ts)).toList

/-- Every subtree with its depth, in depth-first pre-order; the roots have depth 0. -/
def walk (ts : Forest α) : List (Nat × Tree α) :=
  walkFrom 0 ts

/-- The values in depth-first pre-order. -/
def values (ts : Forest α) : List α :=
  (walk ts).map (·.2.value)

/-- The number of subtrees. -/
def count (ts : Forest α) : Nat :=
  (walk ts).length

/-- The number of levels: 0 for the empty forest. -/
def height (ts : Forest α) : Nat :=
  (walk ts).foldl (fun h (depth, _) => max h (depth + 1)) 0

/-- Makes a result for a subtree out of the results for its children, which are the ones made
last. -/
def graft (f : α → List β → β) (t : Tree α) (made : List β) : List β :=
  f t.value (made.take t.children.length) :: made.drop t.children.length

/-- One result for each tree, made from its value and the results for its children. The walk is
gone through backwards, so that children come before their parents. -/
def fold (f : α → List β → β) (ts : Forest α) : List β :=
  (walk ts).foldr (fun (_, t) made => graft f t made) []

/-- The forest of the same shape with `f` applied to every value. -/
def map (f : α → β) (ts : Forest α) : Forest β :=
  fold (fun a children => ⟨f a, children⟩) ts

theorem size_children_lt {t : Tree α} {ts : Forest α} (h : t ∈ ts) :
    size t.children < size ts := by
  induction ts with
  | nil => simp at h
  | cons s ss ih =>
    rw [size_cons]
    rcases List.mem_cons.1 h with rfl | h
    · have := t.size_eq
      omega
    · have := ih h
      omega

end Forest

end MarkupOutline
