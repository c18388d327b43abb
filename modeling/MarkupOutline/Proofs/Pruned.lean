import MarkupOutline.Proofs.AssemblySteps
import MarkupOutline.Proofs.Laid
import MarkupOutline.Proofs.LineReading

/-!
# Reading is pruning

A reading that is not strict takes every token into the full nest (`assemble_ofNest`), so leaving
definition blocks and property elements out on the way gives what making the full tree first and
pruning it afterwards gives.
-/

namespace MarkupOutline.Markup

open Forest

/-- Bounds that are in order make elements of all sketches. -/
theorem Laid.exists_map_sketchOf_eq {lo hi : Position} {ts : Forest Sketch} (h : Laid lo hi ts) :
    ∃ forest, map sketchOf forest = ts := by
  induction h with
  | nil _ => exact ⟨[], map_nil _⟩
  | @cons lo q hi t ts _ hinside below _ ihbelow ihbeside =>
    obtain ⟨children, hchildren⟩ := ihbelow
    obtain ⟨siblings, hsiblings⟩ := ihbeside
    have hle : t.value.start ≤ t.value.stop :=
      Position.le_trans (Position.le_of_lt hinside) below.le
    obtain ⟨e, he⟩ := exists_sketchOf_eq hle
    refine ⟨⟨e, children⟩ :: siblings, ?_⟩
    rw [map_cons, hchildren, hsiblings, he]
    cases t
    rfl

/-- The pruned full tree of a text is a forest of elements: no bounds are reversed. -/
theorem exists_map_sketchOf_eq_prune (text : String) :
    ∃ forest, map sketchOf forest = prune (fullTreeOf text) :=
  (laid_fullTreeOf text).prune.exists_map_sketchOf_eq

/-- The elements of a text are laid out in it. -/
theorem laid_of_map_eq_prune {text : String} {forest : Forest Element}
    (h : map sketchOf forest = prune (fullTreeOf text)) :
    Laid .origin (endOf text) (map sketchOf forest) := by
  rw [h]
  exact (laid_fullTreeOf text).prune

/-- A run that is not strict takes in every token, and comes to the assembly of the full nest. -/
theorem assemble_ofNest (lines : Nat) (stop : Position) (n : Nest Sketch)
    (notices : List Notice) (tokens : List Token) :
    ∃ notices', assemble false lines stop (.ofNest n notices) tokens =
      assemble false lines stop (.ofNest (fullNest n tokens) notices') [] := by
  induction tokens generalizing n notices with
  | nil => exact ⟨notices, rfl⟩
  | cons token tokens ih =>
    obtain ⟨notices', hrest⟩ := ih (fullStep n token) (noticeOf n token ++ notices)
    refine ⟨notices', ?_⟩
    rw [assemble_false_cons, step_ofNest, hrest]
    rfl

/-- What a reading that is not strict makes of a text is its pruned full tree. -/
theorem outcome_read_false {text : String} {forest : Forest Element}
    (h : map sketchOf forest = prune (fullTreeOf text)) :
    (read false text).outcome = .ok forest := by
  obtain ⟨notices, hrun⟩ := assemble_ofNest (Text.lineCount text.toList) (endOf text) .empty []
    (tokensOf text)
  have hforest := forest_ofNest (fullNest .empty (tokensOf text)) notices (endOf text) h
  rw [ofNest_empty] at hrun
  rw [read_eq, hrun, assemble, hforest]

/-- Filtering while reading is pruning afterwards. Of every text, well formed or not, a reading that
is not strict makes the tree of all its start tags, without the definition blocks and with the
content of property elements in their place: the same tags, attributes, labels, kinds and bounds,
nested and ordered alike. -/
theorem read_false_eq_prune_fullTree (text : String) :
    ∃ forest, (read false text).outcome = .ok forest ∧
      map sketchOf forest = prune (fullTreeOf text) := by
  obtain ⟨forest, hforest⟩ := exists_map_sketchOf_eq_prune text
  exact ⟨forest, outcome_read_false hforest, hforest⟩

end MarkupOutline.Markup
