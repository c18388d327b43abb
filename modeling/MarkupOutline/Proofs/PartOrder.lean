import MarkupOutline.Proofs.Concatenation
import MarkupOutline.Proofs.Consistency

/-!
# The parts and the forest

While a text is read, what has been assembled is consistent at all times. In the end the parts stand
in the order of the forest that is built of them: their numbers count its elements in depth-first
pre-order, none left out and none twice (`assembliesOf_consistent`).
-/

namespace MarkupOutline.Markup

open Forest

/-- All that has been assembled of a text at some time: in front of the first token, behind each of
them and, at last, when all open tags have been closed. A strict reading stops at one of these. -/
def assembliesOf (text : String) : List Assembly :=
  (tokensOf text).scanl Assembly.step .empty ++ [(assemblyOf text).closeAll (endOf text)]

theorem consistent_of_mem_assembliesOf {text : String} {a : Assembly}
    (h : a ∈ assembliesOf text) : a.Consistent := by
  rw [assembliesOf, List.mem_append, List.mem_singleton] at h
  rcases h with h | rfl
  · exact Assembly.consistent_empty.of_mem_scanl _ a h
  · exact (Assembly.consistent_empty.foldl_step _).closeAll _

/-! ## The order of the parts -/

/-- Laid out in pre-order, the parts have the sketches of the forest in pre-order. -/
theorem map_sketch_layOut (k : Nat) (ts : Forest Sketch) :
    (layOut k ts).map Part.sketch = values ts := by
  induction ts using Forest.induct generalizing k with
  | nil => simp
  | cons t ts below beside =>
    rw [layOut_cons, List.map_cons, List.map_append, below, beside, values_cons]

/-- In the end the parts of a text are those of its pruned full tree. -/
theorem parts_closeAll_assemblyOf (text : String) :
    ((assemblyOf text).closeAll (endOf text)).parts =
      (layOut 0 (prune (fullTreeOf text))).toArray := by
  obtain ⟨notices, hassembly⟩ := exists_assemblyOf_eq text
  rw [hassembly]
  exact parts_closeAll_ofNest _ notices _

theorem assemble_false_eq (lines : Nat) (stop : Position) (a : Assembly) (tokens : List Token) :
    assemble false lines stop a tokens =
      assemble false lines stop (tokens.foldl Assembly.step a) [] := by
  induction tokens generalizing a with
  | nil => rfl
  | cons token tokens ih => exact ih (a.step token)

/-- A reading that is not strict notes last how many elements and roots it has found. -/
theorem notices_read_false {text : String} {forest : Forest Element}
    (h : map sketchOf forest = prune (fullTreeOf text)) :
    (read false text).notices = (assemblyOf text).notices.reverse ++
      [.finished (count forest) (Text.lineCount text.toList) forest.length] := by
  have hsize : (assemblyOf text).parts.size = count forest := by
    rw [← Assembly.size_parts_closeAll _ (endOf text), parts_closeAll_assemblyOf, ← h,
      List.size_toArray, length_layOut, size_map, count_eq_size]
  have hforest : (assemblyOf text).forest (endOf text) = .ok forest := by
    obtain ⟨notices, hassembly⟩ := exists_assemblyOf_eq text
    rw [hassembly]
    exact forest_ofNest _ notices _ h
  rw [read_eq, assemble_false_eq, ← assemblyOf, assemble, hforest, ← hsize]
  exact List.reverse_cons

/-- Whatever the text, what has been assembled is consistent at all times, the number of open
definition blocks is never negative, and no forest asks for a part that has not been built. When the
text has been read, the forest has the parts for its elements, in depth-first pre-order; so the
numbers of elements and roots that are noted last are those of the forest. -/
theorem assembliesOf_consistent (text : String) :
    (∀ a ∈ assembliesOf text, a.Consistent ∧ 0 ≤ a.definitions ∧
      ∀ p number, a.forest p ≠ .error (.unbuilt number)) ∧
    ∀ strict, match (read strict text).outcome with
      | .ok forest =>
        (values forest).map sketchOf =
          ((assemblyOf text).closeAll (endOf text)).parts.toList.map Part.sketch ∧
        ∃ before, (read strict text).notices = before ++
          [.finished (count forest) (Text.lineCount text.toList) forest.length]
      | .error _ => strict = true := by
  obtain ⟨forest, hforest⟩ := exists_map_sketchOf_eq_prune text
  have hok := outcome_read_false hforest
  have hparts : (values forest).map sketchOf =
      ((assemblyOf text).closeAll (endOf text)).parts.toList.map Part.sketch := by
    rw [parts_closeAll_assemblyOf, List.toList_toArray, map_sketch_layOut, ← hforest, values_map]
  have hnotices := notices_read_false hforest
  refine ⟨fun a ha => ?_, fun strict => ?_⟩
  · have hconsistent := consistent_of_mem_assembliesOf ha
    refine ⟨hconsistent, ?_, hconsistent.forest_ne_unbuilt⟩
    rw [hconsistent.definitions_eq]
    exact Int.natCast_nonneg _
  · cases strict with
    | false =>
      rw [hok]
      exact ⟨hparts, _, hnotices⟩
    | true =>
      rcases read_true_cases text with ⟨hsame, _⟩ | ⟨before, m, _, _, _, hstrict⟩
      · rw [hsame, hok]
        exact ⟨hparts, _, hnotices⟩
      · rw [hstrict]

end MarkupOutline.Markup
