import MarkupOutline.Proofs.AssemblySteps
import MarkupOutline.Proofs.Travel

/-!
# Finished trees

While a forest grows, the trees that stand inside it or in front of its open values are finished:
nothing changes them any more, nor the depth at which they stand. `finished` lists them in
depth-first pre-order. Closing a value adds a single tree to them, the one of that value
(`filter_finishedOf_close`). So among the trees that end before a given line, those that are
finished in front of this line are all that there will ever be (`filter_walk_prune_fullTree`).
-/

namespace MarkupOutline

open Forest

namespace Nest

universe u

variable {α : Type u}

/-- The finished trees of a growing forest with their depths, in depth-first pre-order. -/
def finishedOf (inside : Forest α) : List (Forest α × α) → List (Nat × Tree α)
  | [] => walkFrom 0 inside
  | (front, _) :: rest => finishedOf front rest ++ walkFrom (rest.length + 1) inside

/-- The finished trees of a nest with their depths, in depth-first pre-order. -/
def finished (n : Nest α) : List (Nat × Tree α) :=
  finishedOf n.inside n.around

theorem finishedOf_append (xs ys : Forest α) (around : List (Forest α × α)) :
    finishedOf (xs ++ ys) around = finishedOf xs around ++ walkFrom around.length ys := by
  cases around with
  | nil => exact walkFrom_append 0 xs ys
  | cons o rest =>
    rw [finishedOf, finishedOf, walkFrom_append, List.append_assoc]
    rfl

theorem finished_enter (n : Nest α) (a : α) : (n.enter a).finished = n.finished := by
  show finishedOf n.inside n.around ++ walkFrom (n.around.length + 1) [] = n.finished
  rw [walkFrom_nil, List.append_nil]
  rfl

variable {keep : Nat × Tree α → Bool}

/-- A leaf is one finished tree more. -/
theorem filter_finished_add_leaf {a : α} (h : ∀ depth, keep (depth, ⟨a, []⟩) = false)
    (n : Nest α) : (n.add [⟨a, []⟩]).finished.filter keep = n.finished.filter keep := by
  have hadd : (n.add [⟨a, []⟩]).finished = n.finished ++ [(n.around.length, ⟨a, []⟩)] := by
    show finishedOf (n.inside ++ [⟨a, []⟩]) n.around = _
    rw [finishedOf_append, walkFrom_cons, walkFrom_nil, walkFrom_nil, List.append_nil]
    rfl
  have hnone : [(n.around.length, (⟨a, []⟩ : Tree α))].filter keep = [] := by
    rw [List.filter_cons_of_neg (by rw [h]; exact Bool.false_ne_true), List.filter_nil]
  rw [hadd, List.filter_append, hnone, List.append_nil]

/-- A value that is closed makes one finished tree more. -/
theorem filter_finishedOf_close {a b : α} (h : ∀ depth below, keep (depth, ⟨b, below⟩) = false)
    (inside front : Forest α) (rest : List (Forest α × α)) :
    (finishedOf (front ++ [⟨b, inside⟩]) rest).filter keep =
      (finishedOf inside ((front, a) :: rest)).filter keep := by
  have hone : ∀ depth, walkFrom depth [(⟨b, inside⟩ : Tree α)] =
      (depth, ⟨b, inside⟩) :: walkFrom (depth + 1) inside := by
    intro depth
    rw [walkFrom_cons, walkFrom_nil, List.append_nil]
  rw [finishedOf_append, hone, finishedOf, List.filter_append, List.filter_append,
    List.filter_cons_of_neg (by rw [h]; exact Bool.false_ne_true)]

theorem filter_finished_leave {f : α → α} (h : ∀ a depth below, keep (depth, ⟨f a, below⟩) = false)
    (n : Nest α) : (n.leave f).finished.filter keep = n.finished.filter keep := by
  obtain ⟨inside, _ | ⟨⟨front, a⟩, rest⟩⟩ := n
  · rfl
  · exact filter_finishedOf_close (h a) inside front rest

/-- Closing all that is open adds no more than the trees of the values that are closed. -/
theorem filter_walk_whole {f : α → α} (h : ∀ a depth below, keep (depth, ⟨f a, below⟩) = false)
    (n : Nest α) : (walk (n.whole f)).filter keep = n.finished.filter keep := by
  obtain ⟨inside, around⟩ := n
  show (walk (wholeOf f inside around)).filter keep = (finishedOf inside around).filter keep
  induction around generalizing inside with
  | nil => rfl
  | cons o rest ih =>
    obtain ⟨front, a⟩ := o
    rw [wholeOf, ih]
    exact filter_finishedOf_close (h a) inside front rest

end Nest

namespace Markup

/-- Whether a tree ends on one of the lines in front of `line`. -/
def endsBefore (line : Int) (t : Nat × Tree Sketch) : Bool :=
  t.2.value.stop.line < line

variable {line : Int}

theorem endsBefore_endAt {p : Position} (h : line ≤ p.line) (s : Sketch) (depth : Nat)
    (below : Forest Sketch) : endsBefore line (depth, ⟨s.endAt p, below⟩) = false := by
  have hnot : ¬ p.line < line := by omega
  exact decide_eq_false hnot

/-- A token that ends on `line` or behind it finishes no tree that ends in front of it. -/
theorem filter_finished_visible_fullStep {token : Token}
    (h : ∀ p, token.stop? = some p → line ≤ p.line) (n : Nest Sketch) :
    (visible (fullStep n token)).finished.filter (endsBefore line) =
      (visible n).finished.filter (endsBefore line) := by
  cases token with
  | startTag tag =>
    have hlate : ∀ depth, endsBefore line (depth, ⟨tag.sketch, []⟩) = false := fun depth =>
      endsBefore_endAt (h tag.stop rfl) tag.sketch depth []
    rw [fullStep]
    split
    · rw [visible_add_leaf]
      split
      · exact Nest.filter_finished_add_leaf hlate _
      · rfl
    · rw [visible_enter]
      split
      · rw [Nest.finished_enter]
      · rfl
  | endTag name p =>
    have hlate := endsBefore_endAt (h p rfl)
    obtain ⟨inside, _ | ⟨⟨front, s⟩, rest⟩⟩ := n
    · rfl
    · show (visibleOf (front ++ [⟨s.endAt p, inside⟩]) rest).finished.filter _ = _
      rw [visibleOf_close (Sketch.endAt p) (fun _ => rfl)]
      split
      · rfl
      · exact Nest.filter_finished_leave hlate _
  | aside ended => rfl
  | stray => rfl

/-- Tokens that end on `line` or behind it finish no tree that ends in front of it. -/
theorem filter_finished_visible_fullNest {tokens : List Token}
    (h : ∀ token ∈ tokens, ∀ p, token.stop? = some p → line ≤ p.line) (n : Nest Sketch) :
    (visible (fullNest n tokens)).finished.filter (endsBefore line) =
      (visible n).finished.filter (endsBefore line) := by
  induction tokens generalizing n with
  | nil => rfl
  | cons token tokens ih =>
    rw [List.forall_mem_cons] at h
    have hrest := ih h.2 (fullStep n token)
    have hstep := filter_finished_visible_fullStep h.1 n
    exact hrest.trans hstep

/-- What ends in front of a line is finished by the tokens in front of this line. -/
theorem filter_walk_prune_fullTree {stop : Position} {settled later : List Token}
    (hlater : ∀ token ∈ later, ∀ p, token.stop? = some p → line ≤ p.line)
    (hstop : line ≤ stop.line) :
    (walk (prune (fullTree stop (settled ++ later)))).filter (endsBefore line) =
      (visible (fullNest .empty settled)).finished.filter (endsBefore line) := by
  have hsplit : fullNest .empty (settled ++ later) = fullNest (fullNest .empty settled) later :=
    List.foldl_append
  have hwhole : prune (fullTree stop (settled ++ later)) =
      (visible (fullNest (fullNest .empty settled) later)).whole (Sketch.endAt stop) := by
    rw [← hsplit]
    exact prune_wholeOf (Sketch.endAt stop) (fun _ => rfl) _ _
  rw [hwhole, Nest.filter_walk_whole (endsBefore_endAt hstop),
    filter_finished_visible_fullNest hlater]

end Markup

end MarkupOutline
