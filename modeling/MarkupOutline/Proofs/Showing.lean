import MarkupOutline.Markup.Assembly
import MarkupOutline.Proofs.FullTree
import MarkupOutline.Proofs.Numbering

/-!
# What an assembly shows

The assembly never makes the full tree. It leaves out on the way what `prune` takes away afterwards,
by a count of the open definition blocks and by open tags without a part. `visible` is the nest of
what is shown while the full nest grows. Closing a value and closing all values can be done before
or after pruning (`visibleOf_close`, `prune_wholeOf`).
-/

namespace MarkupOutline.Markup

open Forest Nest

/-! ## The visible nest -/

/-- Whether a definition block is open. -/
def isHidden (around : List (Forest Sketch × Sketch)) : Bool :=
  around.any fun o => isDefinitionTag o.2.tag

/-- What is shown of a full nest. Nothing of it is below an open definition block, and an open
property element hands its content to what stands around it. -/
def visibleOf (inside : Forest Sketch) : List (Forest Sketch × Sketch) → Nest Sketch
  | [] => ⟨prune inside, []⟩
  | (front, s) :: rest =>
    if isHidden ((front, s) :: rest) then visibleOf front rest
    else if Name.isDotted s.tag then (visibleOf front rest).add (prune inside)
    else ((visibleOf front rest).enter s).add (prune inside)

/-- What is shown of a full nest. -/
def visible (n : Nest Sketch) : Nest Sketch :=
  visibleOf n.inside n.around

theorem visibleOf_hidden {front : Forest Sketch} {s : Sketch}
    {rest : List (Forest Sketch × Sketch)} (inside : Forest Sketch)
    (h : isHidden ((front, s) :: rest) = true) :
    visibleOf inside ((front, s) :: rest) = visibleOf front rest := by
  rw [visibleOf, if_pos h]

theorem visibleOf_dotted {front : Forest Sketch} {s : Sketch}
    {rest : List (Forest Sketch × Sketch)} (inside : Forest Sketch)
    (h : isHidden ((front, s) :: rest) = false) (hdot : Name.isDotted s.tag = true) :
    visibleOf inside ((front, s) :: rest) = (visibleOf front rest).add (prune inside) := by
  rw [visibleOf, if_neg (by simp [h]), if_pos hdot]

theorem visibleOf_shown {front : Forest Sketch} {s : Sketch}
    {rest : List (Forest Sketch × Sketch)} (inside : Forest Sketch)
    (h : isHidden ((front, s) :: rest) = false) (hdot : Name.isDotted s.tag = false) :
    visibleOf inside ((front, s) :: rest) =
      ((visibleOf front rest).enter s).add (prune inside) := by
  rw [visibleOf, if_neg (by simp [h]), if_neg (by simp [hdot])]

theorem isHidden_cons (o : Forest Sketch × Sketch) (rest : List (Forest Sketch × Sketch)) :
    isHidden (o :: rest) = (isDefinitionTag o.2.tag || isHidden rest) :=
  List.any_cons

/-- An innermost open tag is below a definition block, or opens one, or is a property element, or
is shown. -/
theorem around_cases (front : Forest Sketch) (s : Sketch) (rest : List (Forest Sketch × Sketch)) :
    isHidden ((front, s) :: rest) = true ∨
      isHidden ((front, s) :: rest) = false ∧ Name.isDotted s.tag = true ∨
      isHidden ((front, s) :: rest) = false ∧ Name.isDotted s.tag = false := by
  cases isHidden ((front, s) :: rest) <;> cases Name.isDotted s.tag <;> simp

/-- What is added at the innermost level is shown, pruned, unless a definition block is open. -/
theorem visibleOf_append (x y : Forest Sketch) (around : List (Forest Sketch × Sketch)) :
    visibleOf (x ++ y) around =
      if isHidden around then visibleOf x around else (visibleOf x around).add (prune y) := by
  match around with
  | [] => simp [visibleOf, isHidden, prune_append, Nest.add]
  | (front, s) :: rest =>
    rcases around_cases front s rest with h | ⟨h, hdot⟩ | ⟨h, hdot⟩
    · rw [visibleOf_hidden _ h, visibleOf_hidden _ h, if_pos h]
    · rw [visibleOf_dotted _ h hdot, visibleOf_dotted _ h hdot, if_neg (by simp [h]), add_add,
        prune_append]
    · rw [visibleOf_shown _ h hdot, visibleOf_shown _ h hdot, if_neg (by simp [h]), add_add,
        prune_append]

/-- Closing a value and pruning afterwards is the same as pruning and closing afterwards. -/
theorem visibleOf_close (f : Sketch → Sketch) (hf : ∀ s, (f s).tag = s.tag)
    (front inside : Forest Sketch) (s : Sketch) (rest : List (Forest Sketch × Sketch)) :
    visibleOf (front ++ [⟨f s, inside⟩]) rest =
      if isHidden ((front, s) :: rest) || Name.isDotted s.tag then
        visibleOf inside ((front, s) :: rest)
      else (visibleOf inside ((front, s) :: rest)).leave f := by
  rw [visibleOf_append, prune_single, hf]
  rcases around_cases front s rest with h | ⟨h, hdot⟩ | ⟨h, hdot⟩
  · rw [visibleOf_hidden _ h, h, Bool.true_or, if_pos rfl]
    rw [isHidden_cons, Bool.or_eq_true] at h
    rcases h with hdef | hrest
    · rw [if_pos hdef, add_nil, ite_self]
    · rw [if_pos hrest]
  · rw [visibleOf_dotted _ h hdot, h, hdot, Bool.or_true, if_pos rfl]
    rw [isHidden_cons, Bool.or_eq_false_iff] at h
    simp [h.1, h.2]
  · rw [visibleOf_shown _ h hdot, h, hdot, Bool.or_self, if_neg Bool.false_ne_true]
    rw [isHidden_cons, Bool.or_eq_false_iff] at h
    rw [h.1, h.2]
    rfl

/-- The full nest, closed and then pruned, is the visible nest, closed. -/
theorem prune_wholeOf (f : Sketch → Sketch) (hf : ∀ s, (f s).tag = s.tag) (inside : Forest Sketch)
    (around : List (Forest Sketch × Sketch)) :
    prune (wholeOf f inside around) = (visibleOf inside around).whole f := by
  induction around generalizing inside with
  | nil => rfl
  | cons o rest ih =>
    obtain ⟨front, s⟩ := o
    rw [wholeOf, ih, visibleOf_close f hf]
    rcases around_cases front s rest with h | ⟨h, hdot⟩ | ⟨h, hdot⟩
    · rw [h, Bool.true_or, if_pos rfl]
    · rw [h, hdot, Bool.or_true, if_pos rfl]
    · rw [h, hdot, Bool.or_self, if_neg Bool.false_ne_true, visibleOf_shown _ h hdot]
      rfl

end MarkupOutline.Markup
