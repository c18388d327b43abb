import MarkupOutline.Listing
import MarkupOutline.Lookup
import MarkupOutline.Markup.Assembly
import MarkupOutline.Outline
import MarkupOutline.Proofs.Lines

/-!
# How lines end

Reading a text is a matter of its lines (`read_congr`). Which of them end in a line feed alone and
which in a carriage return and a line feed, and whether a return stands behind the last one, makes
no difference to what is read, noted or failed at (`read_ofLines`).
-/

namespace MarkupOutline

namespace Text

/-! ## Lines and their ends -/

/-- A line without its end: no line feed stands in it and no carriage return at its end. A return
elsewhere in it is a character like any other. -/
structure Line where
  chars : List Char
  feed_not_mem : '\n' ∉ chars
  getLast?_ne_return : chars.getLast? ≠ some '\r'

/-- A line, with a carriage return behind it or not. -/
def Line.ended (l : Line) (withReturn : Bool) : List Char :=
  if withReturn then l.chars ++ ['\r'] else l.chars

/-- The text of some lines with a line feed between any two; `returns n` tells whether a carriage
return stands behind the line `n`, counted from 0. -/
def ofLines (returns : Nat → Bool) (ls : List Line) : String :=
  String.ofList (['\n'].intercalate (ls.mapIdx fun n l => l.ended (returns n)))

theorem Line.feed_not_mem_ended (l : Line) (withReturn : Bool) : '\n' ∉ l.ended withReturn := by
  unfold ended
  split
  · simp [l.feed_not_mem]
  · exact l.feed_not_mem

/-- Without its return the line is as it was, since no other stands at its end. -/
theorem Line.withoutReturn_ended (l : Line) (withReturn : Bool) :
    withoutReturn (l.ended withReturn) = l.chars := by
  unfold ended
  split
  · rw [withoutReturn, if_pos List.getLast?_concat, List.dropLast_concat]
  · exact if_neg l.getLast?_ne_return

/-- The lines of a text made of lines are these lines, however they end. -/
theorem lines_ofLines (returns : Nat → Bool) (first : Line) (others : List Line) :
    lines (ofLines returns (first :: others)).toList = (first :: others).map Line.chars := by
  have hfeed : ∀ cs ∈ (first :: others).mapIdx fun n l => l.ended (returns n), '\n' ∉ cs := by
    intro cs hcs
    obtain ⟨n, hn, rfl⟩ := List.mem_mapIdx.1 hcs
    exact Line.feed_not_mem_ended _ _
  rw [ofLines, String.toList_ofList, lines_eq, List.splitOn_intercalate '\n' hfeed (by simp)]
  refine List.ext_getElem? fun n => ?_
  simp only [List.getElem?_map, List.getElem?_mapIdx, Option.map_map, Function.comp_def,
    Line.withoutReturn_ended]

/-- A return in the middle of a line stays. -/
example : lines "a\rb\r\nc\r".toList = ["a\rb".toList, "c".toList] := by decide +kernel

end Text

namespace Markup

/-! ## Reading lines -/

/-- Texts with the same lines are read alike. -/
theorem read_congr {text other : String} (h : Text.lines text.toList = Text.lines other.toList)
    (strict : Bool) : read strict text = read strict other := by
  rw [read, read, h]

/-- The lines of a text are read as they are, whichever of them have a carriage return behind them.
So it makes no difference which ones have: the forest or the failure is the same, and so are the
notices, the outline, the listing and the element at any position. -/
theorem read_ofLines (strict : Bool) (first : Text.Line) (others : List Text.Line)
    (returns returns' : Nat → Bool) :
    Text.lines (Text.ofLines returns (first :: others)).toList =
        (first :: others).map Text.Line.chars ∧
      read strict (Text.ofLines returns (first :: others)) =
        read strict (Text.ofLines returns' (first :: others)) ∧
      (∀ lineNumbers,
        (read strict (Text.ofLines returns (first :: others))).outcome.map
            (Outline.ofForest lineNumbers) =
          (read strict (Text.ofLines returns' (first :: others))).outcome.map
            (Outline.ofForest lineNumbers)) ∧
      (read strict (Text.ofLines returns (first :: others))).outcome.map Listing.ofForest =
        (read strict (Text.ofLines returns' (first :: others))).outcome.map Listing.ofForest ∧
      ∀ p,
        (read strict (Text.ofLines returns (first :: others))).outcome.map (Lookup.elementAt p) =
          (read strict (Text.ofLines returns' (first :: others))).outcome.map
            (Lookup.elementAt p) := by
  have hlines := Text.lines_ofLines returns first others
  have hread : read strict (Text.ofLines returns (first :: others)) =
      read strict (Text.ofLines returns' (first :: others)) :=
    read_congr (hlines.trans (Text.lines_ofLines returns' first others).symm) strict
  rw [hread]
  exact ⟨hlines, rfl, fun _ => rfl, rfl, fun _ => rfl⟩

end Markup

end MarkupOutline
