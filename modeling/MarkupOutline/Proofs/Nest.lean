import MarkupOutline.Tree.Walk

/-!
# Nests

A `Nest` is a forest that is still growing at its right edge. What can be done to it is little: add
finished trees at the innermost level (`add`), open a value (`enter`), and close the innermost open
value (`leave`). `wholeOf` is the forest it stands for, and `countOf` its size.
-/

namespace MarkupOutline

universe u

variable {α : Type u}

/-- A growing forest: the trees finished at the innermost level, and the open values around them,
innermost first, each with the trees in front of it. -/
structure Nest (α : Type u) where
  inside : Forest α
  around : List (Forest α × α)

namespace Nest

/-- Nothing yet. -/
def empty : Nest α := ⟨[], []⟩

/-- Adds finished trees at the innermost level. -/
def add (n : Nest α) (ts : Forest α) : Nest α := ⟨n.inside ++ ts, n.around⟩

/-- Opens a value. -/
def enter (n : Nest α) (a : α) : Nest α := ⟨[], (n.inside, a) :: n.around⟩

/-- Closes the innermost open value, changed by `f`; with nothing open nothing happens. -/
def leave (f : α → α) (n : Nest α) : Nest α :=
  match n.around with
  | [] => n
  | (front, a) :: rest => ⟨front ++ [⟨f a, n.inside⟩], rest⟩

/-- The whole forest when all that is open is closed, each value changed by `f`. -/
def wholeOf (f : α → α) (inside : Forest α) : List (Forest α × α) → Forest α
  | [] => inside
  | (front, a) :: rest => wholeOf f (front ++ [⟨f a, inside⟩]) rest

/-- The whole forest of a nest. -/
def whole (f : α → α) (n : Nest α) : Forest α :=
  wholeOf f n.inside n.around

/-- The number of values, open ones included. -/
def countOf (inside : Forest α) : List (Forest α × α) → Nat
  | [] => Forest.size inside
  | (front, _) :: rest => countOf front rest + (1 + Forest.size inside)

/-- The number of values in a nest. -/
def count (n : Nest α) : Nat :=
  countOf n.inside n.around

theorem countOf_append (x y : Forest α) (around : List (Forest α × α)) :
    countOf (x ++ y) around = countOf x around + Forest.size y := by
  cases around with
  | nil => exact Forest.size_append x y
  | cons o rest =>
    simp only [countOf, Forest.size_append]
    omega

/-- The whole forest has as many values as have been counted, whatever becomes of them. -/
theorem size_wholeOf (f : α → α) (inside : Forest α) (around : List (Forest α × α)) :
    Forest.size (wholeOf f inside around) = countOf inside around := by
  induction around generalizing inside with
  | nil => rfl
  | cons o rest ih =>
    have hone : Forest.size [(⟨f o.2, inside⟩ : Tree α)] = 1 + Forest.size inside := by
      rw [Forest.size_cons, Tree.size_eq, Forest.size_nil, Nat.add_zero]
    rw [wholeOf, ih, countOf_append, hone, countOf]

theorem add_nil (n : Nest α) : n.add [] = n := by
  rw [add, List.append_nil]

theorem add_add (n : Nest α) (xs ys : Forest α) : (n.add xs).add ys = n.add (xs ++ ys) := by
  rw [add, add, add, List.append_assoc]

/-! ## Values -/

section

open Forest

variable (f : α → α)

/-- What is added at the innermost level comes last. -/
theorem values_wholeOf_append (x y : Forest α) (around : List (Forest α × α)) :
    values (wholeOf f (x ++ y) around) = values (wholeOf f x around) ++ values y := by
  induction around generalizing x y with
  | nil => exact values_append x y
  | cons o rest ih =>
    obtain ⟨front, a⟩ := o
    rw [wholeOf, ih, wholeOf, ih]
    simp

theorem values_whole_add (n : Nest α) (ts : Forest α) :
    values ((n.add ts).whole f) = values (n.whole f) ++ values ts :=
  values_wholeOf_append f n.inside ts n.around

theorem values_whole_enter_add (n : Nest α) (a : α) (ts : Forest α) :
    values (((n.enter a).add ts).whole f) = values (n.whole f) ++ f a :: values ts := by
  have hadd := values_wholeOf_append f n.inside [⟨f a, ts⟩] n.around
  rw [values_cons, values_nil, List.append_nil] at hadd
  exact hadd

theorem length_values_whole (n : Nest α) : (values (n.whole f)).length = n.count := by
  rw [values, List.length_map]
  exact (count_eq_size _).trans (size_wholeOf f n.inside n.around)

/-- To close a value first makes no difference when all values are closed alike. -/
theorem whole_leave (n : Nest α) : (n.leave f).whole f = n.whole f := by
  obtain ⟨inside, _ | ⟨o, rest⟩⟩ := n
  · rfl
  · rfl

end

end Nest

end MarkupOutline
