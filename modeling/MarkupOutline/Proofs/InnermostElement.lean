import MarkupOutline.Lookup
import MarkupOutline.Proofs.WellNested

/-!
# The innermost element

Going down from the roots commits to the first element that covers the position and never turns
back. In a forest read from a text this loses nothing: siblings cover different positions, and an
element covers whatever is covered inside it. So the elements that cover a position stand one inside
the other, and the last of them in pre-order is the one that is found.
-/

namespace MarkupOutline

open Forest

/-- The trees of a forest whose elements cover a position, in depth-first pre-order. -/
def Lookup.covering (p : Position) (ts : Forest Element) : List (Tree Element) :=
  (subtrees ts).filter fun t => p ∈ t.value.span

theorem Lookup.covering_cons (p : Position) (t : Tree Element) (ts : Forest Element) :
    covering p (t :: ts) =
      if p ∈ t.value.span then t :: (covering p t.children ++ covering p ts)
      else covering p t.children ++ covering p ts := by
  simp only [covering, subtrees_cons, List.filter_cons, List.filter_append, decide_eq_true_eq]

namespace Markup

open Lookup

variable {lo hi : Position} {p : Position} {t : Tree Element} {ts : Forest Element}

/-! ## What covers a position -/

/-- All spans of a layout lie between its bounds. -/
theorem Laid.bounds_of_mem_subtrees (h : Laid lo hi (map sketchOf ts)) {u : Tree Element}
    (hu : u ∈ subtrees ts) : lo ≤ u.value.span.start ∧ u.value.span.stop ≤ hi := by
  induction ts using Forest.induct generalizing lo hi with
  | nil => simp at hu
  | cons t ts below beside =>
    rw [map_cons] at h
    cases h with
    | @cons _ q _ _ _ hstart hinside hbelow hbeside =>
      have hlo : lo ≤ q := Position.le_trans hstart (Position.le_of_lt hinside)
      have hlt : t.value.span.start < t.value.span.stop :=
        Position.lt_of_lt_of_le hinside hbelow.le
      rw [subtrees_cons, List.mem_cons, List.mem_append] at hu
      rcases hu with rfl | hu | hu
      · exact ⟨hstart, hbeside.le⟩
      · have hbounds := below hbelow hu
        exact ⟨Position.le_trans hlo hbounds.1, Position.le_trans hbounds.2 hbeside.le⟩
      · have hbounds := beside hbeside hu
        have hfront : lo ≤ t.value.span.stop :=
          Position.le_trans hstart (Position.le_of_lt hlt)
        exact ⟨Position.le_trans hfront hbounds.1, hbounds.2⟩

/-- Nothing covers a position outside the bounds of a layout. -/
theorem Laid.covering_eq_nil (h : Laid lo hi (map sketchOf ts)) (hp : p < lo ∨ hi ≤ p) :
    covering p ts = [] := by
  rw [covering, List.filter_eq_nil_iff]
  intro u hu hcovers
  obtain ⟨hlo, hhi⟩ := h.bounds_of_mem_subtrees hu
  obtain ⟨hstart, hstop⟩ := of_decide_eq_true hcovers
  rw [Position.lt_def, Position.le_def] at *
  omega

/-- A root that covers the position comes first, and all others that cover it are inside. -/
theorem Laid.covering_cons_of_mem (h : Laid lo hi (map sketchOf (t :: ts)))
    (hp : p ∈ t.value.span) : covering p (t :: ts) = t :: covering p t.children := by
  rw [map_cons] at h
  cases h with
  | cons _ _ _ hbeside =>
    have hothers : covering p ts = [] := hbeside.covering_eq_nil (.inl hp.2)
    rw [covering_cons, if_pos hp, hothers, List.append_nil]

/-- Where a root does not cover the position, nothing inside it does. -/
theorem Laid.covering_cons_of_not_mem (h : Laid lo hi (map sketchOf (t :: ts)))
    (hp : p ∉ t.value.span) : covering p (t :: ts) = covering p ts := by
  rw [map_cons] at h
  cases h with
  | @cons _ q _ _ _ _ hinside hbelow _ =>
    have houtside : p < q ∨ t.value.span.stop ≤ p := by
      rw [Span.mem_def] at hp
      have hle : t.value.span.start ≤ p ∨ p < t.value.span.start := by
        rw [Position.lt_def, Position.le_def]
        omega
      rcases hle with hle | hlt
      · exact .inr (Position.not_lt.1 fun hlt => hp ⟨hle, hlt⟩)
      · exact .inl (Position.lt_of_lt_of_le hlt (Position.le_of_lt hinside))
    have hnone : covering p t.children = [] := hbelow.covering_eq_nil houtside
    rw [covering_cons, if_neg hp, hnone, List.nil_append]

/-! ## What is found -/

/-- The element found is the last one in pre-order that covers the position. -/
theorem Laid.elementAt_eq (h : Laid lo hi (map sketchOf ts)) :
    elementAt p ts = (covering p ts).getLast? := by
  induction ts using Forest.induct generalizing lo hi with
  | nil => simp [covering]
  | cons t ts below beside =>
    have hwhole := h
    rw [map_cons] at h
    cases h with
    | cons _ _ hbelow hbeside =>
      rw [elementAt_cons]
      split
      · next hp =>
        rw [hwhole.covering_cons_of_mem hp, below hbelow, List.getLast?_cons]
        cases (covering p t.children).getLast? <;> rfl
      · next hp => rw [hwhole.covering_cons_of_not_mem hp, beside hbeside]

/-- Whatever covers the position is the last element in pre-order that does, or has it inside. -/
theorem Laid.of_mem_covering (h : Laid lo hi (map sketchOf ts)) {u : Tree Element}
    (hu : u ∈ covering p ts) :
    ∃ found, (covering p ts).getLast? = some found ∧ (found = u ∨ found ∈ subtrees u.children) := by
  induction ts using Forest.induct generalizing lo hi with
  | nil => simp [covering] at hu
  | cons t ts below beside =>
    have hwhole := h
    rw [map_cons] at h
    cases h with
    | cons _ _ hbelow hbeside =>
      by_cases hp : p ∈ t.value.span
      · rw [hwhole.covering_cons_of_mem hp] at hu ⊢
        rw [List.getLast?_cons]
        rcases List.mem_cons.1 hu with rfl | hu
        · -- the root is found itself unless something inside it covers the position
          cases hlast : (covering p u.children).getLast? with
          | none => exact ⟨u, rfl, .inl rfl⟩
          | some found =>
            have hmem : found ∈ covering p u.children := List.mem_of_getLast? hlast
            exact ⟨found, rfl, .inr ((List.mem_filter.1 hmem).1)⟩
        · obtain ⟨found, hlast, hfound⟩ := below hbelow hu
          exact ⟨found, by rw [hlast]; rfl, hfound⟩
      · rw [hwhole.covering_cons_of_not_mem hp] at hu ⊢
        exact beside hbeside hu

/-- In the forest read from a text, the element found under a position is the last one in
depth-first pre-order whose span contains the position. None is found exactly if no span of the
forest contains it, and every element whose span contains it is the one that is found or has it
inside. -/
theorem elementAt_read (text : String) (p : Position) :
    ∃ forest, (read false text).outcome = .ok forest ∧
      elementAt p forest =
        ((subtrees forest).filter fun t => p ∈ t.value.span).getLast? ∧
      (elementAt p forest = none ↔ ∀ t ∈ subtrees forest, p ∉ t.value.span) ∧
      ∀ t ∈ subtrees forest, p ∈ t.value.span →
        ∃ found, elementAt p forest = some found ∧ (found = t ∨ found ∈ subtrees t.children) := by
  obtain ⟨forest, hforest⟩ := exists_map_sketchOf_eq_prune text
  have hlaid := laid_of_map_eq_prune hforest
  refine ⟨forest, outcome_read_false hforest, hlaid.elementAt_eq, ?_, ?_⟩
  · rw [hlaid.elementAt_eq, List.getLast?_eq_none_iff, covering, List.filter_eq_nil_iff]
    simp only [decide_eq_true_eq]
  · intro t ht hp
    rw [hlaid.elementAt_eq]
    exact hlaid.of_mem_covering (List.mem_filter.2 ⟨ht, decide_eq_true hp⟩)

end Markup

end MarkupOutline
