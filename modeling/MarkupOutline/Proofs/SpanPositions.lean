import MarkupOutline.Position

/-!
# Spans as sets of positions

A span that is not empty is told by the positions in it. It is enclosed exactly by the spans in which
all of its positions lie, and it has no position in common exactly with those that end before it
starts or start where it has ended (`encloses_iff_forall_mem`). Positions are lines and columns of
any sign, so the position that parts two spans is always one of their own bounds.
-/

namespace MarkupOutline.Span

variable {s t : Span}

/-- A span that is not empty starts with a position of its own. -/
theorem start_mem (h : s.start < s.stop) : s.start ∈ s :=
  ⟨Position.le_refl s.start, h⟩

/-- Up to its end a span that is not empty has positions behind any bound. -/
theorem exists_mem_le {p : Position} (h : s.start < s.stop) (hp : p < s.stop) :
    ∃ q, q ∈ s ∧ p ≤ q := by
  rcases Position.le_total s.start p with hle | hle
  · exact ⟨p, ⟨hle, hp⟩, Position.le_refl p⟩
  · exact ⟨s.start, start_mem h, hle⟩

/-- A span encloses one that is not empty if all positions of the other lie in it. -/
theorem encloses_of_forall_mem (ht : t.start < t.stop) (h : ∀ p, p ∈ t → p ∈ s) :
    s.Encloses t := by
  refine ⟨(h t.start (start_mem ht)).1, Position.not_lt.1 fun hlt => ?_⟩
  -- else the other span would go on behind the end of this one
  obtain ⟨p, hp, hle⟩ := exists_mem_le ht hlt
  exact Position.not_lt.2 hle (h p hp).2

/-- No position lies in a span and behind its end. -/
theorem not_mem_of_stop_le_start {p : Position} (h : s.stop ≤ t.start) (hs : p ∈ s) : p ∉ t :=
  fun ht => Position.not_lt.2 (Position.le_trans h ht.1) hs.2

/-- Of two spans that overlap, the one that starts later starts in both. -/
theorem mem_or_mem_of_overlap (hs : s.start < s.stop) (ht : t.start < t.stop)
    (hst : s.start < t.stop) (hts : t.start < s.stop) :
    t.start ∈ s ∧ t.start ∈ t ∨ s.start ∈ s ∧ s.start ∈ t := by
  rcases Position.le_total s.start t.start with hle | hle
  · exact .inl ⟨⟨hle, hts⟩, start_mem ht⟩
  · exact .inr ⟨start_mem hs, ⟨hle, hst⟩⟩

/-- Spans that are not empty and have no position in common stand one behind the other. -/
theorem stop_le_start_of_forall_not_mem (hs : s.start < s.stop) (ht : t.start < t.stop)
    (h : ∀ p, ¬ (p ∈ s ∧ p ∈ t)) : s.stop ≤ t.start ∨ t.stop ≤ s.start := by
  by_cases hst : t.stop ≤ s.start
  · exact .inr hst
  · refine .inl (Position.not_lt.1 fun hts => ?_)
    have hlt : s.start < t.stop := Decidable.not_not.1 fun hnot => hst (Position.not_lt.1 hnot)
    rcases mem_or_mem_of_overlap hs ht hlt hts with hboth | hboth
    · exact h t.start hboth
    · exact h s.start hboth

/-- Enclosing is inclusion of positions. A span encloses one that is not empty if and only if every
position of the other lies in it; and if it is not empty either, the two have no position in common
if and only if one of them ends before or where the other starts. -/
theorem encloses_iff_forall_mem (s t : Span) (ht : t.start < t.stop) :
    (s.Encloses t ↔ ∀ p, p ∈ t → p ∈ s) ∧
      (s.start < s.stop →
        ((∀ p, ¬ (p ∈ s ∧ p ∈ t)) ↔ s.stop ≤ t.start ∨ t.stop ≤ s.start)) := by
  refine ⟨⟨fun h p hp => h.mem hp, encloses_of_forall_mem ht⟩, fun hs => ⟨?_, ?_⟩⟩
  · exact stop_le_start_of_forall_not_mem hs ht
  · rintro (hle | hle) p ⟨hps, hpt⟩
    · exact not_mem_of_stop_le_start hle hps hpt
    · exact not_mem_of_stop_le_start hle hpt hps

/-- Lines and columns may be negative: a span up to column -2 has the positions of one up to column
-3 of the same line, and the span between these two columns has none of them. -/
theorem encloses_iff_forall_mem_lines :
    (∀ p, p ∈ (⟨⟨-1, 7⟩, ⟨1, -3⟩, by decide⟩ : Span) →
        p ∈ (⟨⟨-1, 4⟩, ⟨1, -2⟩, by decide⟩ : Span)) ∧
      ∀ p, ¬ (p ∈ (⟨⟨1, -3⟩, ⟨1, -2⟩, by decide⟩ : Span) ∧
        p ∈ (⟨⟨-1, 7⟩, ⟨1, -3⟩, by decide⟩ : Span)) :=
  ⟨(encloses_iff_forall_mem _ _ (by decide)).1.1 (by decide),
    ((encloses_iff_forall_mem _ _ (by decide)).2 (by decide)).2 (by decide)⟩

end MarkupOutline.Span
