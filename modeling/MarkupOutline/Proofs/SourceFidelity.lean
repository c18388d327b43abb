import Mathlib.Data.List.Forall2
import MarkupOutline.Outline
import MarkupOutline.Proofs.Lines
import MarkupOutline.Proofs.Provenance
import MarkupOutline.Proofs.TagPlaces
import MarkupOutline.Proofs.WellNested

/-!
# Elements in their source

Whatever the text, the bounds of an element point at its own markup: a `<` with the tag behind it,
and the end of a tag or of the text. The selection of its symbol covers the tag and nothing else
(`depicts_read`).

That a `<` cannot stand inside a name, nor a `>` in front of the end of one, keeps selections apart
and inside their ranges (`Text.PartedAt.mem_of_lt`).
-/

namespace MarkupOutline

open Forest

/-! ## Slices of lines -/

/-- The part of a line that a span covers which begins and ends on that line. -/
def Span.slice? (lines : List (List Char)) (s : Span) : Option (List Char) :=
  if s.start.line = s.stop.line ∧ 0 ≤ s.start.line then
    lines[s.start.line.toNat]?.map fun line =>
      (line.take s.stop.column.toNat).drop s.start.column.toNat
  else none

namespace Text

variable {lines : List (List Char)} {p q : Position} {front behind : List Char}

/-- The columns from a place on cover as much of the text behind it. -/
theorem PartedAt.slice?_columns {cs : List Char} (h : PartedAt lines p front (cs ++ behind)) :
    (Span.columns p cs.length).slice? lines = some cs := by
  obtain ⟨n, hline, rfl⟩ := h
  have htake : (front ++ (cs ++ behind)).take (front.length + cs.length) = front ++ cs := by
    rw [← List.append_assoc, ← List.length_append, List.take_left]
  have hstop : ((front.length : Int) + cs.length).toNat = front.length + cs.length := by
    omega
  simp only [Span.slice?, Span.columns, Position.right, Int.toNat_natCast, hline, hstop]
  rw [if_pos ⟨trivial, Int.natCast_nonneg n⟩, Option.map_some, htake, List.drop_left]

/-- What stands at a place within some text on a line belongs to that text. -/
theorem PartedAt.mem_of_lt {cs front' behind' : List Char} {c : Char}
    (h : PartedAt lines p front (cs ++ behind)) (h' : PartedAt lines q front' (c :: behind'))
    (hpq : p ≤ q) (hlt : q < p.right cs.length) : c ∈ cs := by
  obtain ⟨n, hline, rfl⟩ := h
  obtain ⟨m, hline', rfl⟩ := h'
  simp only [Position.le_def, Position.lt_def, Position.right] at hpq hlt
  have hnm : n = m := by
    omega
  subst hnm
  rw [hline, Option.some.injEq] at hline'
  have hchar : (front ++ (cs ++ behind))[front'.length]? = some c := by
    rw [hline', List.getElem?_append_right (Nat.le_refl _), Nat.sub_self, List.getElem?_cons_zero]
  rw [List.getElem?_append_right (by omega), List.getElem?_append_left (by omega)] at hchar
  exact List.mem_of_getElem? hchar

/-- No place on a line is behind the last place. -/
theorem PartedAt.le_lastPlace (h : PartedAt lines p front behind) :
    p.right behind.length ≤ lastPlace lines := by
  obtain ⟨n, hline, rfl⟩ := h
  obtain ⟨hn, -⟩ := List.getElem?_eq_some_iff.1 hline
  rw [Position.le_def, lastPlace]
  by_cases hlast : n = lines.length - 1
  · have hline' : lines.getLastD [] = front ++ behind := by
      rw [List.getLastD_eq_getLast?, List.getLast?_eq_getElem?, ← hlast, hline]
      rfl
    rw [hline', List.length_append]
    simp only [Position.right]
    omega
  · simp only [Position.right]
    omega

end Text

namespace Markup

/-! ## Places of tags -/

/-- A `<` and the whole of a name stand at a place. -/
def TagBegins (lines : List (List Char)) (p : Position) (tag : List Char) : Prop :=
  ∃ front behind, Text.PartedAt lines p front ('<' :: (tag ++ behind)) ∧
    Name.read? (tag ++ behind) = some tag

/-- A place is that behind a `>`, or the last one. -/
def TagEnds (lines : List (List Char)) (p : Position) : Prop :=
  p = Text.lastPlace lines ∨ ∃ front behind, Text.PartedAt lines p (front ++ ['>']) behind

/-- No name goes beyond the line on which it begins. -/
theorem read?_takeWhile (cs : List Char) :
    Name.read? (cs.takeWhile (· ≠ '\n')) = Name.read? cs := by
  have hsplit : cs.takeWhile (· ≠ '\n') ++ cs.dropWhile (· ≠ '\n') = cs :=
    List.takeWhile_append_dropWhile
  cases hrest : cs.dropWhile (· ≠ '\n') with
  | nil =>
    rw [hrest, List.append_nil] at hsplit
    rw [hsplit]
  | cons y ys =>
    have hhead := List.head?_dropWhile_not (· ≠ '\n') cs
    rw [hrest] at hhead
    have hfeed : y = '\n' := Decidable.not_not.1 (of_decide_eq_false hhead)
    have hpart : ¬ Name.isPart y := by
      rw [hfeed]
      decide
    rw [← Name.read?_append_cons hpart, ← hrest, hsplit]

/-- A name behind a `<` stands on its line as it stands in the text. -/
theorem tagBegins_of_read? {before rest tag : List Char} (h : Name.read? rest = some tag) :
    TagBegins ((before ++ '<' :: rest).splitOn '\n') (Position.origin.afterAll before) tag := by
  obtain ⟨front, hparted⟩ := Text.exists_partedAt_afterAll before ('<' :: rest)
  rw [List.takeWhile_cons_of_pos (by decide)] at hparted
  rw [← read?_takeWhile] at h
  obtain ⟨behind, hbehind⟩ := Name.prefix_of_read? h
  rw [← hbehind] at hparted h
  exact ⟨front, behind, hparted, h⟩

/-- Where reading has come to the end of a tag, a tag ends on the line. -/
theorem tagEnds_of_endsTag {cs : List Char} {d : Cursor}
    (h : Token.EndsTag (Cursor.ofText cs) d) : TagEnds (Text.lines cs) d.position := by
  obtain ⟨ds, hleads, hend⟩ := h
  have hrest : Text.withLineFeeds cs = ds ++ d.rest := hleads.rest_eq
  have hplace : d.position = Position.origin.afterAll ds := hleads.position_eq
  rw [← Text.splitOn_withLineFeeds, hrest, hplace]
  rcases hend with hnil | ⟨front, rfl⟩
  · left
    rw [hnil, List.append_nil, Text.afterAll_eq_lastPlace]
  · right
    obtain ⟨before, hparted⟩ := Text.exists_partedAt_afterAll front ('>' :: d.rest)
    have hafter : Position.origin.afterAll (front ++ ['>']) =
        (Position.origin.afterAll front).right 1 := by
      rw [Position.afterAll_append]
      rfl
    rw [List.takeWhile_cons_of_pos (by decide)] at hparted
    rw [hafter, List.append_assoc]
    exact ⟨before, _, hparted.right⟩

/-! ## Tags of a text -/

/-- The start tags of a text stand where they say. -/
theorem tagBegins_of_mem_tokensOf {text : String} {tag : StartTag}
    (h : .startTag tag ∈ tokensOf text) :
    TagBegins (Text.lines text.toList) tag.start tag.name.toList := by
  obtain ⟨d, cs, rest, hleads, hmark, hread⟩ := Token.exists_of_mem_readAll h
  obtain ⟨name, hname, htag, hstart⟩ := Token.exists_name_of_eq_read hread
  have hrest : Text.withLineFeeds text.toList = cs ++ '<' :: rest := hmark ▸ hleads.rest_eq
  have hplace : d.position = Position.origin.afterAll cs := hleads.position_eq
  rw [Cursor.rest_advance, hmark] at hname
  rw [← Text.splitOn_withLineFeeds, hrest, htag, String.toList_ofList, hstart, hplace]
  exact tagBegins_of_read? hname

/-- The tags of a text end where they say. -/
theorem tagEnds_of_mem_tokensOf {text : String} {token : Token} {p : Position}
    (h : token ∈ tokensOf text) (hstop : token.stop? = some p) :
    TagEnds (Text.lines text.toList) p := by
  obtain ⟨d, cs, rest, hleads, _, rfl⟩ := Token.exists_of_mem_readAll h
  have hreads := Token.reads_read d
  have hend := (hreads.endsTag hstop).trans hleads
  rw [hreads.stop_eq hstop]
  exact tagEnds_of_endsTag hend

/-- Every element of a text begins and ends at its tags. -/
theorem tags_of_mem_values {text : String} {forest : Forest Element}
    (hforest : map sketchOf forest = prune (fullTreeOf text)) {e : Element}
    (he : e ∈ values forest) :
    TagBegins (Text.lines text.toList) e.span.start e.tag.toList ∧
      TagEnds (Text.lines text.toList) e.span.stop := by
  refine of_mem_values_read (P := fun s => TagBegins (Text.lines text.toList) s.start s.tag.toList ∧
    TagEnds (Text.lines text.toList) s.stop) hforest ?_ ?_ ?_ he
  · intro tag htag
    exact ⟨tagBegins_of_mem_tokensOf htag, tagEnds_of_mem_tokensOf htag rfl⟩
  · intro name p htag s hs
    exact ⟨hs.1, tagEnds_of_mem_tokensOf htag rfl⟩
  · intro s hs
    exact ⟨hs.1, .inl (Cursor.position_atEnd_ofText text.toList)⟩

/-! ## Symbols -/

variable {lines : List (List Char)} {p q : Position} {tag : List Char}

/-- The tag of an element stands behind its `<`. -/
theorem TagBegins.behind (h : TagBegins lines p tag) :
    ∃ front behind, Text.PartedAt lines (p.right 1) front (tag ++ behind) := by
  obtain ⟨front, behind, hparted, _⟩ := h
  have hplus : Text.PartedAt lines p front (['<'] ++ (tag ++ behind)) := hparted
  exact ⟨_, behind, hplus.right⟩

/-- A tag that begins further on begins behind the name of this one. -/
theorem TagBegins.le_of_lt {tag' : List Char} (h : TagBegins lines p tag)
    (h' : TagBegins lines q tag') (hpq : p < q) : (p.right 1).right tag.length ≤ q := by
  obtain ⟨front, behind, hparted, hname⟩ := h
  obtain ⟨front', behind', hparted', _⟩ := h'
  have hnot : '<' ∉ tag := fun hmem => absurd (Name.isPart_of_mem_read? hname _ hmem) (by decide)
  have hplus : Text.PartedAt lines p front (['<'] ++ (tag ++ behind)) := hparted
  rw [← Position.not_lt]
  intro hlt
  refine hnot (hplus.right.mem_of_lt hparted' ?_ hlt)
  simp only [Position.lt_def, Position.le_def, Position.right, List.length_singleton] at hpq ⊢
  omega

/-- A tag that ends further on ends behind the name of this one. -/
theorem TagBegins.le_of_tagEnds (h : TagBegins lines p tag) (h' : TagEnds lines q) (hpq : p < q) :
    (p.right 1).right tag.length ≤ q := by
  obtain ⟨front, behind, hparted, hname⟩ := h
  rcases h' with rfl | ⟨front', behind', hparted'⟩
  · have hlast := hparted.le_lastPlace
    simp only [Position.le_def, Position.right, List.length_cons, List.length_append] at hlast ⊢
    omega
  · obtain ⟨m, hline', rfl⟩ := hparted'
    have hbefore : Text.PartedAt lines ⟨m, front'.length⟩ front' ('>' :: behind') :=
      ⟨m, by rw [hline', List.append_assoc]; rfl, rfl⟩
    have hnot : '>' ∉ '<' :: tag := by
      rw [List.mem_cons, not_or]
      exact ⟨by decide, fun hmem => absurd (Name.isPart_of_mem_read? hname _ hmem) (by decide)⟩
    have hplus : Text.PartedAt lines p front (('<' :: tag) ++ behind) := hparted
    -- the `>` itself stands neither in front of the tag nor in it
    have hge : ¬ ((⟨m, front'.length⟩ : Position) < p.right ('<' :: tag).length) := by
      intro hlt
      refine hnot (hplus.mem_of_lt hbefore ?_ hlt)
      simp only [Position.lt_def, Position.le_def, List.length_append, List.length_singleton]
        at hpq ⊢
      omega
    simp only [Position.lt_def, Position.le_def, Position.right, List.length_append,
      List.length_cons] at hge ⊢
    omega

/-- An element, its symbol and the lines of their source. The element starts at a `<` with all of
its tag behind it on the same line, and it ends behind a `>` or at the end of the text. The range of
the symbol is the span of the element, and its selection is the part of the range that reads as the
tag. -/
structure Depicts (lines : List (List Char)) (e : Element) (s : Outline.Symbol) : Prop where
  begins : ∃ front behind,
    Text.PartedAt lines e.span.start front ('<' :: (e.tag.toList ++ behind)) ∧
      Name.read? (e.tag.toList ++ behind) = some e.tag.toList
  ends : e.span.stop = Text.lastPlace lines ∨
    ∃ front behind, Text.PartedAt lines e.span.stop (front ++ ['>']) behind
  range_eq : s.range = e.span
  encloses : s.range.Encloses s.selection
  slice : s.selection.slice? lines = some e.tag.toList

/-- Every element read from a text and its symbol stand where they say in the lines of the text, and
the selections of different symbols have no position in common. -/
theorem depicts_read (text : String) (lineNumbers : Bool) :
    ∃ forest, (read false text).outcome = .ok forest ∧
      List.Forall₂ (Depicts (Text.lines text.toList)) (values forest)
        (values (Outline.ofForest lineNumbers forest)) ∧
      (values (Outline.ofForest lineNumbers forest)).Pairwise fun s t =>
        ∀ p, p ∈ s.selection → p ∉ t.selection := by
  obtain ⟨forest, hforest⟩ := exists_map_sketchOf_eq_prune text
  have hlaid := laid_of_map_eq_prune hforest
  have hsymbols : values (Outline.ofForest lineNumbers forest) =
      (values forest).map (Outline.Symbol.ofElement lineNumbers) := by
    rw [Outline.ofForest_eq_map, values_map]
  refine ⟨forest, outcome_read_false hforest, ?_, ?_⟩
  · rw [hsymbols, List.forall₂_map_right_iff, List.forall₂_same]
    intro e he
    obtain ⟨hbegins, hends⟩ := tags_of_mem_values hforest he
    have hlt : e.span.start < e.span.stop := by
      rw [values_eq_map_subtrees, List.mem_map] at he
      obtain ⟨t, ht, rfl⟩ := he
      obtain ⟨q, hinside, hcontent⟩ := hlaid.of_mem_subtrees ht
      exact Position.lt_of_lt_of_le hinside hcontent.le
    obtain ⟨front, behind, hbehind⟩ := hbegins.behind
    exact
      { begins := hbegins
        ends := hends
        range_eq := rfl
        encloses := ⟨Position.le_right _ 1, hbegins.le_of_tagEnds hends hlt⟩
        slice := hbehind.slice?_columns }
  · rw [hsymbols, List.pairwise_map]
    refine hlaid.pairwise_start.1.imp_of_mem fun {e f} he hf hlt p hpe hpf => ?_
    have hbegins := (tags_of_mem_values hforest he).1
    have hle := hbegins.le_of_lt (tags_of_mem_values hforest hf).1 hlt
    have hfront : p < f.span.start := Position.lt_of_lt_of_le hpe.2 hle
    have hbehind : f.span.start ≤ p := Position.le_trans (Position.le_right _ 1) hpf.1
    exact Position.not_lt.2 hbehind hfront

end Markup

end MarkupOutline
