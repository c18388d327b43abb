import MarkupOutline.Element

/-!
# Looking up an element

The element under a position is found by going down from the roots: at each level the first element
that covers the position is taken, and the search goes on below it.
-/

namespace MarkupOutline.Lookup

/-- The last element taken on the way down, starting from `found`. -/
def descend (p : Position) (found : Option (Tree Element)) (forest : Forest Element) :
    Option (Tree Element) :=
  match _ : forest.find? fun t => p ∈ t.value.span with
  | some t => descend p (some t) t.children
  | none => found
termination_by Forest.size forest
decreasing_by
  exact Forest.size_children_lt (List.mem_of_find?_eq_some ‹_›)

/-- The innermost element under a position, with all that is below it. -/
def elementAt (p : Position) (forest : Forest Element) : Option (Tree Element) :=
  descend p none forest

theorem isSome_descend {p : Position} {found : Option (Tree Element)} {forest : Forest Element}
    (h : found.isSome) : (descend p found forest).isSome := by
  fun_induction descend p found forest with
  | case1 found forest t _ ih => exact ih rfl
  | case2 found forest _ => exact h

theorem descend_eq_or (p : Position) (found : Option (Tree Element)) (forest : Forest Element) :
    descend p found forest = (elementAt p forest).or found := by
  rw [elementAt, descend, descend]
  split
  · next t _ =>
    have taken : (descend p (some t) t.children).isSome := isSome_descend rfl
    obtain ⟨u, hu⟩ := Option.isSome_iff_exists.1 taken
    rw [hu, Option.some_or]
  · rfl

/-- Where no element of the first level covers the position there is none at all. -/
theorem elementAt_of_find?_eq_none {p : Position} {forest : Forest Element}
    (h : forest.find? (fun t => p ∈ t.value.span) = none) : elementAt p forest = none := by
  rw [elementAt, descend]
  split <;> simp_all

/-- The first element that covers the position is the answer, unless there is one below it. -/
theorem elementAt_of_find?_eq_some {p : Position} {forest : Forest Element} {t : Tree Element}
    (h : forest.find? (fun t => p ∈ t.value.span) = some t) :
    elementAt p forest = (elementAt p t.children).or (some t) := by
  rw [elementAt, descend]
  split <;> simp_all [descend_eq_or]

@[simp]
theorem elementAt_nil (p : Position) : elementAt p [] = none :=
  elementAt_of_find?_eq_none rfl

/-- The first tree of a forest is looked into if its element covers the position, and passed over
otherwise. -/
theorem elementAt_cons (p : Position) (t : Tree Element) (ts : Forest Element) :
    elementAt p (t :: ts) =
      if p ∈ t.value.span then (elementAt p t.children).or (some t) else elementAt p ts := by
  split
  · next h => exact elementAt_of_find?_eq_some (List.find?_cons_of_pos (decide_eq_true h))
  · next h =>
    have hskip : (t :: ts).find? (fun t => p ∈ t.value.span) =
        ts.find? fun t => p ∈ t.value.span := List.find?_cons_of_neg (by simpa using h)
    cases hfind : ts.find? fun t => p ∈ t.value.span with
    | none =>
      rw [elementAt_of_find?_eq_none hfind, elementAt_of_find?_eq_none (hskip.trans hfind)]
    | some u =>
      rw [elementAt_of_find?_eq_some hfind, elementAt_of_find?_eq_some (hskip.trans hfind)]

end MarkupOutline.Lookup
