import MarkupOutline.Proofs.TagLayout

/-!
# Values do not change the structure

Whatever stands between the quotation marks of a start tag, it is not read as markup. The characters
of a value may be replaced by as many others that do not contain its mark, with line feeds at the
same places: the text is read as the same elements again, attributes and labels aside, and a strict
reading of it succeeds or fails alike (`read_revalued`).
-/

namespace MarkupOutline

/-! ## Line feeds at the same places -/

/-- Two texts of the same length with line feeds at the same places. -/
def Text.SameFeeds (cs ds : List Char) : Prop :=
  List.Forall₂ (fun c d => c = '\n' ↔ d = '\n') cs ds

/-- Such texts lead to the same place. -/
theorem Text.SameFeeds.afterAll_eq {cs ds : List Char} (h : Text.SameFeeds cs ds) (p : Position) :
    p.afterAll ds = p.afterAll cs := by
  induction h generalizing p with
  | nil => rfl
  | @cons c d cs ds hfeed _ ih =>
    have hafter : p.after d = p.after c := by simp only [Position.after, hfeed]
    show (p.after d).afterAll ds = (p.after c).afterAll cs
    rw [hafter, ih]

/-- The element without what its attributes say. -/
def Element.bare (e : Element) : Element :=
  { e with attributes := .empty, label := "" }

namespace Markup

open Forest

/-! ## Values -/

/-- A value in the raw text of a start tag: what stands in front of it, where all values are
complete, the mark that begins and ends it, the characters between, and the rest of the raw text. -/
structure TagSource.Value {text : String} (s : TagSource text) where
  front : List Char
  quote : Char
  chars : List Char
  rest : List Char
  raw_eq : s.raw = front ++ quote :: (chars ++ quote :: rest)
  balanced : Balanced front
  isQuote : Attributes.isQuote quote
  quote_not_mem : quote ∉ chars

namespace TagSource.Value

variable {text : String} {s : TagSource text} (v : s.Value)

/-- The raw text with other characters in the value. -/
def rawWith (chars' : List Char) : List Char :=
  v.front ++ v.quote :: (chars' ++ v.quote :: v.rest)

theorem raw_eq_rawWith : s.raw = v.rawWith v.chars := v.raw_eq

theorem quote_ne_of_not_isQuote {c : Char} (hc : ¬ Attributes.isQuote c) : v.quote ≠ c := by
  intro heq
  rw [← heq] at hc
  exact hc v.isQuote

/-- Behind a value no mark is open, whatever its characters are. -/
theorem quoteBehind?_rawWith {chars' : List Char} (h : v.quote ∉ chars') :
    quoteBehind? none (v.rawWith chars') = quoteBehind? none v.rest := by
  rw [rawWith, quoteBehind?_append, balanced_iff.1 v.balanced, Option.bind_some,
    quoteBehind?_none_cons, if_neg (v.quote_ne_of_not_isQuote (by decide)), if_pos v.isQuote,
    quoteBehind?_value h]

theorem getLast?_rawWith (chars' : List Char) :
    (v.rawWith chars').getLast? = (v.quote :: v.rest).getLast? := by
  have hsplit : v.rawWith chars' = (v.front ++ v.quote :: chars') ++ v.quote :: v.rest := by
    simp [rawWith]
  rw [hsplit, List.getLast?_append_cons]

variable {chars' : List Char}

/-- The tag ends at the same mark. -/
theorem extent_rawWith (h : v.quote ∉ chars') : Extent (v.rawWith chars') s.close s.behind := by
  refine s.extent.congr ?_ ?_
  · rw [v.raw_eq_rawWith, v.quoteBehind?_rawWith h, v.quoteBehind?_rawWith v.quote_not_mem]
  · rw [v.raw_eq_rawWith, v.getLast?_rawWith, v.getLast?_rawWith]
    exact id

/-- The name ends in front of the value. -/
theorem read?_rawWith (chars' : List Char) :
    Name.read? (s.name ++ (v.rawWith chars' ++ (s.close ++ s.behind))) = some s.name := by
  have hpart : ¬ Name.isPart v.quote := fun hpart => (plain_of_isPart hpart).2 v.isQuote
  have hread : ∀ chars, Name.read? (s.name ++ (v.rawWith chars ++ (s.close ++ s.behind))) =
      Name.read? (s.name ++ v.front) := by
    intro chars
    have hsplit : s.name ++ (v.rawWith chars ++ (s.close ++ s.behind)) = (s.name ++ v.front) ++
        v.quote :: ((chars ++ v.quote :: v.rest) ++ (s.close ++ s.behind)) := by
      simp [rawWith]
    rw [hsplit, Name.read?_append_cons hpart]
  rw [hread, ← hread v.chars, ← v.raw_eq_rawWith]
  exact s.read?_eq

/-- The tag with other characters in the value. -/
def revalue (h : v.quote ∉ chars') : TagSource (s.textWith (v.rawWith chars')) :=
  s.withRaw (v.extent_rawWith h) (v.read?_rawWith chars')

/-! ## Reading other characters in a value -/

/-- With its line ends made uniform the tag stays as it is, its value aside. -/
theorem exists_withLineFeeds_eq : ∃ zs, ∀ chars',
    Text.withLineFeeds (s.name ++ (v.rawWith chars' ++ (s.close ++ s.behind))) =
      (Text.dropReturns ((s.name ++ v.front) ++ v.quote :: chars') ++ v.quote :: zs) ++
        Text.withLineFeeds s.behind := by
  obtain ⟨zs, hzs⟩ := Text.exists_withLineFeeds_append (v.rest ++ s.close) s.behind
  refine ⟨zs, fun chars' => ?_⟩
  have hsplit : s.name ++ (v.rawWith chars' ++ (s.close ++ s.behind)) =
      ((s.name ++ v.front) ++ v.quote :: chars') ++
        v.quote :: ((v.rest ++ s.close) ++ s.behind) := by
    simp [rawWith]
  -- the mark behind the value is no line end, so the text can be taken apart there
  rw [hsplit, Text.withLineFeeds_append_cons _ (v.quote_ne_of_not_isQuote (by decide)),
    Text.withLineFeeds_cons_of_ne (v.quote_ne_of_not_isQuote (by decide)), hzs]
  simp

/-- What is read of the tag leads to the same place, whatever its value is. -/
theorem afterAll_eq (hfeeds : Text.SameFeeds v.chars chars') {passed passed' : List Char}
    (h : Text.withLineFeeds (s.name ++ (s.raw ++ (s.close ++ s.behind))) =
      passed ++ Text.withLineFeeds s.behind)
    (h' : Text.withLineFeeds (s.name ++ (v.rawWith chars' ++ (s.close ++ s.behind))) =
      passed' ++ Text.withLineFeeds s.behind) (p : Position) :
    p.afterAll passed' = p.afterAll passed := by
  obtain ⟨zs, hall⟩ := v.exists_withLineFeeds_eq
  rw [v.raw_eq_rawWith, hall] at h
  rw [hall] at h'
  have hplace : ∀ chars, p.afterAll
      (Text.dropReturns ((s.name ++ v.front) ++ v.quote :: chars) ++ v.quote :: zs) =
        (((p.afterAll (s.name ++ v.front)).after v.quote).afterAll chars).afterAll
          (v.quote :: zs) := by
    intro chars
    rw [Position.afterAll_append, Position.afterAll_dropReturns, Position.afterAll_append]
    rfl
  rw [← List.append_cancel_right h, ← List.append_cancel_right h', hplace, hplace,
    hfeeds.afterAll_eq]

/-- The tokens of both texts are alike but for attributes and labels, and both texts end at the same
place. -/
theorem forall₂_alike_revalue (hended : ∀ token ∈ s.tokensBefore, token.isEnded)
    (hfeeds : Text.SameFeeds v.chars chars') (hquote : v.quote ∉ chars') :
    List.Forall₂ (Token.Alike .bare) (tokensOf (s.textWith (v.rawWith chars'))) (tokensOf text) ∧
      endOf (s.textWith (v.rawWith chars')) = endOf text := by
  obtain ⟨tag, passed, hof, hpassed, hstop, htokens⟩ := s.exists_tokensOf_eq hended
  obtain ⟨tag', passed', hof', hpassed', hstop', htokens'⟩ :=
    (v.revalue hquote).exists_tokensOf_eq hended
  have hpassed'' := v.afterAll_eq hfeeds hpassed hpassed' (s.start.after '<')
  have hsame : tag'.stop = tag.stop := hstop'.trans (hpassed''.trans hstop.symm)
  refine ⟨?_, ?_⟩
  · have hsketch : tag'.sketch.bare = tag.sketch.bare := by
      have hname : tag'.name = tag.name := hof'.name_eq.trans hof.name_eq.symm
      have hstart : tag'.start = tag.start := hof'.start_eq.trans hof.start_eq.symm
      rw [StartTag.sketch, StartTag.sketch, hname, hstart, hsame]
      rfl
    rw [htokens, htokens', hsame]
    exact List.rel_append (List.forall₂_same.2 fun token _ => .refl token)
      (.cons (.startTag hsketch (hof'.closed_iff.trans hof.closed_iff.symm))
        (List.forall₂_same.2 fun token _ => .refl token))
  · rw [s.endOf_eq hpassed, (v.revalue hquote).endOf_eq hpassed', ← hstop, ← hsame, hstop']
    rfl

end TagSource.Value

/-! ## Elements with other characters in a value -/

theorem map_sketchOf_bare (forest : Forest Element) :
    map sketchOf (map Element.bare forest) = map Sketch.bare (map sketchOf forest) := by
  rw [map_map, map_map]
  rfl

/-- Let a start tag that is read of a text have a value, and let other characters stand in the
value: as many, with line feeds at the same places and without the mark of the value, but with any
markup and any other mark. The text is read as the same elements, nested and ordered alike, with the
same tags, kinds and bounds. A strict reading succeeds on both texts, or it fails on both with the
same mismatch. -/
theorem read_revalued {text : String} (s : TagSource text)
    (hread : ∃ tag, .startTag tag ∈ tokensOf text ∧ tag.start = s.start) (v : s.Value)
    {chars' : List Char} (hfeeds : Text.SameFeeds v.chars chars') (hquote : v.quote ∉ chars') :
    ∃ forest forest', (read false text).outcome = .ok forest ∧
      (read false (s.textWith (v.rawWith chars'))).outcome = .ok forest' ∧
      map Element.bare forest' = map Element.bare forest ∧
      (read true (s.textWith (v.rawWith chars'))).outcome.map (map Element.bare) =
        (read true text).outcome.map (map Element.bare) := by
  -- a tag that is read stands behind markup that has ended
  have hended : ∀ token ∈ s.tokensBefore, token.isEnded := by
    obtain ⟨tag, htag, hstart⟩ := hread
    obtain ⟨s', hof, hended⟩ := exists_tagSource htag
    obtain rfl : s' = s := TagSource.eq_of_start_eq (hof.start_eq.symm.trans hstart)
    exact hended
  obtain ⟨halike, hstop⟩ := v.forall₂_alike_revalue hended hfeeds hquote
  obtain ⟨forest, hforest⟩ := exists_map_sketchOf_eq_prune text
  obtain ⟨forest', hforest'⟩ := exists_map_sketchOf_eq_prune (s.textWith (v.rawWith chars'))
  have hbare : map Element.bare forest' = map Element.bare forest := by
    apply map_injective fun _ _ => sketchOf_injective
    rw [map_sketchOf_bare, map_sketchOf_bare, hforest, hforest']
    exact Aspect.map_sketch_prune_fullTreeOf hstop halike
  have hfirst : firstMismatch? .empty (tokensOf (s.textWith (v.rawWith chars'))) =
      firstMismatch? .empty (tokensOf text) := by
    rw [← ofNest_empty]
    exact Aspect.firstMismatch?_alike (fun _ _ => congrArg Position.line) rfl halike [] []
  refine ⟨forest, forest', outcome_read_false hforest, outcome_read_false hforest', hbare, ?_⟩
  rw [outcome_read_true, outcome_read_true, hfirst, outcome_read_false hforest,
    outcome_read_false hforest']
  cases firstMismatch? .empty (tokensOf text) with
  | some m => rfl
  | none => exact congrArg Except.ok hbare

/-- Markup that would close the tag and its element, the other mark and the beginning of a comment
change nothing in a value. The end tag on the third line does not match, as it did not before. -/
theorem read_revalued_markup :
    ∃ forest forest',
      (read false "<A N='\"' T=\"one\nand two\">\n<B/></C>").outcome = .ok forest ∧
      (read false "<A N='\"' T=\"'/>\n</A><!-\">\n<B/></C>").outcome = .ok forest' ∧
      map Element.bare forest' = map Element.bare forest ∧
      (read true "<A N='\"' T=\"'/>\n</A><!-\">\n<B/></C>").outcome.map (map Element.bare) =
        .error (.mismatch ⟨"A", "C", 2⟩) := by
  have hstrict : (read true "<A N='\"' T=\"one\nand two\">\n<B/></C>").outcome =
      .error (.mismatch ⟨"A", "C", 2⟩) := by decide +kernel
  obtain ⟨forest, forest', hforest, hforest', hbare, hsame⟩ := read_revalued
    (⟨[], ['A'], " N='\"' T=\"one\nand two\"".toList, ['>'], "\n<B/></C>".toList, by decide,
      by decide, .opened (balanced_iff.2 (by decide)) (by decide)⟩ :
        TagSource "<A N='\"' T=\"one\nand two\">\n<B/></C>")
    ⟨⟨"A", ⟨0, 0⟩, ⟨1, 9⟩, " N='\"' T=\"one\nand two\"".toList, .opened⟩, by decide +kernel, rfl⟩
    ⟨" N='\"' T=".toList, '"', "one\nand two".toList, [], by decide, balanced_iff.2 (by decide),
      by decide, by decide⟩
    (show Text.SameFeeds _ "'/>\n</A><!-".toList by simp [Text.SameFeeds]) (by decide)
  rw [hstrict] at hsame
  exact ⟨forest, forest', hforest, hforest', hbare, hsame⟩

end Markup

end MarkupOutline
