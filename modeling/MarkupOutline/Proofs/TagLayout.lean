import MarkupOutline.Proofs.Likeness
import MarkupOutline.Proofs.Serialized
import MarkupOutline.Proofs.SourceTags

/-!
# The layout of tags

Every element has the attributes of the raw text of its tag, however the tag is spread over lines
and indented. A run of blanks in the raw text may be replaced by any other: the tag keeps its
extent, and the text is read as the same elements, bounds aside (`read_layout`).
-/

namespace MarkupOutline

/-! ## Runs of blanks -/

namespace Text

/-- The second text is the first with one run of blanks replaced by another; neither is empty. -/
inductive Respaced : List Char → List Char → Prop
  | intro (front behind : List Char) {run run' : List Char} (hne : run ≠ []) (hne' : run' ≠ [])
      (hblank : ∀ c ∈ run, isBlank c) (hblank' : ∀ c ∈ run', isBlank c) :
      Respaced (front ++ (run ++ behind)) (front ++ (run' ++ behind))

namespace Respaced

variable {cs ds : List Char}

theorem symm (h : Respaced cs ds) : Respaced ds cs := by
  cases h with
  | intro front behind hne hne' hblank hblank' => exact .intro front behind hne' hne hblank' hblank

theorem append (h : Respaced cs ds) (xs ys : List Char) :
    Respaced (xs ++ (cs ++ ys)) (xs ++ (ds ++ ys)) := by
  cases h with
  | intro front behind hne hne' hblank hblank' =>
    have hspaced := Respaced.intro (xs ++ front) (behind ++ ys) hne hne' hblank hblank'
    simpa only [List.append_assoc] using hspaced

theorem collapse_eq (h : Respaced cs ds) : collapse ds = collapse cs := by
  cases h with
  | intro front behind hne hne' hblank hblank' =>
    apply collapse_append_congr
    rw [collapse_run_append hne hblank, collapse_run_append hne' hblank']

theorem withoutBlanks_eq (h : Respaced cs ds) : withoutBlanks ds = withoutBlanks cs := by
  cases h with
  | @intro front behind run run' _ _ hblank hblank' =>
    have hnone : ∀ run : List Char, (∀ c ∈ run, isBlank c) → run.filter (!isBlank ·) = [] := by
      intro run hblank
      rw [List.filter_eq_nil_iff]
      intro c hc
      simp [hblank c hc]
    simp only [withoutBlanks, List.filter_append, hnone run hblank, hnone run' hblank']

/-- A character that is no blank stays at the end. -/
theorem getLast?_eq {y : Char} (h : Respaced cs ds) (hy : ¬ isBlank y)
    (hlast : cs.getLast? = some y) : ds.getLast? = some y := by
  cases h with
  | @intro front behind run _ hne _ hblank _ =>
    have hrun : run.getLast? ≠ some y := fun hrun => hy (hblank y (List.mem_of_getLast? hrun))
    rw [List.getLast?_append, List.getLast?_append, List.getLast?_eq_some_getLast hne] at hlast
    rw [List.getLast?_eq_some_getLast hne] at hrun
    rw [List.getLast?_append, List.getLast?_append]
    cases hbehind : behind.getLast? with
    | none =>
      rw [hbehind, Option.none_or, Option.some_or] at hlast
      exact absurd hlast hrun
    | some z =>
      rw [hbehind, Option.some_or, Option.some_or] at hlast
      rw [Option.some_or, Option.some_or, hlast]

/-- A name ends in front of the blanks. -/
theorem read?_eq (h : Respaced cs ds) : Name.read? ds = Name.read? cs := by
  have hread : ∀ (front behind : List Char) {run : List Char}, run ≠ [] →
      (∀ c ∈ run, isBlank c) → Name.read? (front ++ (run ++ behind)) = Name.read? front := by
    intro front behind run hne hblank
    obtain ⟨c, run, rfl⟩ := List.exists_cons_of_ne_nil hne
    have hc : ¬ Name.isPart c := fun hpart =>
      Name.not_isBlank_of_isPart hpart (hblank c List.mem_cons_self)
    exact Name.read?_append_cons hc front (run ++ behind)
  cases h with
  | intro front behind hne hne' hblank hblank' =>
    rw [hread front behind hne hblank, hread front behind hne' hblank']

end Respaced

end Text

/-- Blanks of any kind and number are one to attributes. -/
theorem Attributes.ofText_respaced {cs ds : List Char} (h : Text.Respaced cs ds) :
    ofText ds = ofText cs := by
  rw [ofText, ofText, h.collapse_eq]

/-- What an element shows, and whether it starts at a place. -/
def Element.faceAt (p : Position) (e : Element) :
    (String × Attributes × String × Kind) × Bool :=
  (e.face, e.span.start = p)

namespace Markup

open Forest

/-! ## Tags with other blanks -/

/-- With other blanks in its raw text a tag ends at the same mark. -/
theorem Extent.respaced {raw raw' close behind : List Char} (h : Extent raw close behind)
    (hspaced : Text.Respaced raw raw') : Extent raw' close behind :=
  h.congr (quoteBehind?_congr hspaced.withoutBlanks_eq) (hspaced.symm.getLast?_eq (by decide))

namespace TagSource

variable {text : String}

/-- The text with other raw text in the tag. -/
def textWith (s : TagSource text) (raw' : List Char) : String :=
  String.ofList (s.before ++ '<' :: (s.name ++ (raw' ++ (s.close ++ s.behind))))

/-- The tag with other raw text, if the name stays and the tag ends at the same mark. -/
def withRaw (s : TagSource text) {raw' : List Char} (h : Extent raw' s.close s.behind)
    (hname : Name.read? (s.name ++ (raw' ++ (s.close ++ s.behind))) = some s.name) :
    TagSource (s.textWith raw') where
  before := s.before
  name := s.name
  raw := raw'
  close := s.close
  behind := s.behind
  toList_eq := String.toList_ofList
  read?_eq := hname
  extent := h

/-- Blanks do not change the name in front of them. -/
theorem read?_respaced (s : TagSource text) {raw' : List Char} (h : Text.Respaced s.raw raw') :
    Name.read? (s.name ++ (raw' ++ (s.close ++ s.behind))) = some s.name := by
  rw [(h.append s.name (s.close ++ s.behind)).read?_eq]
  exact s.read?_eq

/-- Both texts have the same tokens one by one, places aside. -/
theorem forall₂_alike_respace (s : TagSource text) (hended : ∀ token ∈ s.tokensBefore, token.isEnded)
    {raw' : List Char} (h : Text.Respaced s.raw raw') :
    List.Forall₂ (Token.Alike (.blur s.start)) (tokensOf (s.textWith raw')) (tokensOf text) := by
  obtain ⟨tag, passed, hof, -, hstop, htokens⟩ := s.exists_tokensOf_eq hended
  obtain ⟨tag', passed', hof', -, hstop', htokens'⟩ :=
    (s.withRaw (s.extent.respaced h) (s.read?_respaced h)).exists_tokensOf_eq hended
  have hsketch : tag'.sketch.blur s.start = tag.sketch.blur s.start := by
    have hattributes : Attributes.ofText tag'.attributeText = Attributes.ofText tag.attributeText :=
      hof'.ofText_eq.trans ((Attributes.ofText_respaced h).trans hof.ofText_eq.symm)
    have hname : tag'.name = tag.name := hof'.name_eq.trans hof.name_eq.symm
    have hstart : tag'.start = tag.start := hof'.start_eq.trans hof.start_eq.symm
    rw [StartTag.sketch, StartTag.sketch, hname, hattributes, hstart]
    rfl
  have hbehind : List.Forall₂ (Token.Alike (.blur s.start))
      (Token.readAll ⟨tag'.stop, Text.withLineFeeds s.behind⟩)
      (Token.readAll ⟨tag.stop, Text.withLineFeeds s.behind⟩) := by
    -- places behind the tag stay behind it
    have hcarried : Position.Carried fun q q' => s.start < q ∧ s.start < q' := fun q q' h c =>
      ⟨Position.lt_of_lt_of_le h.1 (Position.le_of_lt (Position.lt_after q c)),
        Position.lt_of_lt_of_le h.2 (Position.le_of_lt (Position.lt_after q' c))⟩
    have hlt : s.start < tag.stop := hstop ▸ Position.lt_afterAll _ (List.cons_ne_nil _ _)
    have hlt' : s.start < tag'.stop := hstop' ▸ Position.lt_afterAll _ (List.cons_ne_nil _ _)
    have hread := Token.forall₂_readAll hcarried (c := ⟨tag'.stop, Text.withLineFeeds s.behind⟩)
      (d := ⟨tag.stop, Text.withLineFeeds s.behind⟩) ⟨rfl, hlt', hlt⟩
    exact hread.imp fun _ _ => Token.Alike.of_elsewhere
  rw [htokens, htokens']
  exact List.rel_append (List.forall₂_same.2 fun token _ => .refl token)
    (.cons (.startTag hsketch (hof'.closed_iff.trans hof.closed_iff.symm)) hbehind)

end TagSource

/-! ## Elements with other blanks -/

/-- Of texts with tokens that are alike the same elements are read, bounds aside. -/
theorem map_faceAt_eq_of_alike {text text' : String} {p : Position}
    {forest forest' : Forest Element} (hforest : map sketchOf forest = prune (fullTreeOf text))
    (hforest' : map sketchOf forest' = prune (fullTreeOf text'))
    (h : List.Forall₂ (Token.Alike (.blur p)) (tokensOf text') (tokensOf text)) :
    map (Element.faceAt p) forest' = map (Element.faceAt p) forest := by
  have hface : ∀ e : Element, Element.faceAt p e =
      (((sketchOf e).blur p).face, decide (((sketchOf e).blur p).start = p)) := by
    intro e
    simp only [Sketch.start_blur_eq_iff]
    rfl
  have hmap : ∀ ts : Forest Element, map (Element.faceAt p) ts =
      map (fun s => (s.face, decide (s.start = p)))
        (map (Aspect.blur p).sketch (map sketchOf ts)) := by
    intro ts
    rw [map_map, map_map, funext hface]
    rfl
  have hstop : (Aspect.blur p).place (endOf text') = (Aspect.blur p).place (endOf text) := rfl
  rw [hmap, hmap, hforest, hforest', Aspect.map_sketch_prune_fullTreeOf hstop h]

/-- A sketch is that of a start tag in the source, its end aside. -/
structure TagSource.Sketches {text : String} (s : TagSource text) (sketch : Sketch) : Prop where
  start_eq : s.start = sketch.start
  name_eq : s.name = sketch.tag.toList
  attributes_eq : sketch.attributes = Attributes.ofText s.raw
  label_eq : sketch.label = Element.labelOf sketch.tag (Attributes.ofText s.raw)

/-- Every element of a text is that of a start tag in the source, behind markup that has ended. -/
theorem exists_sketches {text : String} {forest : Forest Element}
    (hforest : map sketchOf forest = prune (fullTreeOf text)) {e : Element}
    (he : e ∈ values forest) : ∃ s : TagSource text, s.Sketches (sketchOf e) ∧
      ∀ token ∈ s.tokensBefore, token.isEnded := by
  have hmoved : ∀ (q : Position) (sketch : Sketch) (s : TagSource text), s.Sketches sketch →
      s.Sketches (sketch.endAt q) := fun _ _ _ h => ⟨h.1, h.2, h.3, h.4⟩
  refine of_mem_values_read (P := fun sketch => ∃ s : TagSource text, s.Sketches sketch ∧
    ∀ token ∈ s.tokensBefore, token.isEnded) hforest ?_ ?_ ?_ he
  · intro tag htag
    obtain ⟨s, hof, hended⟩ := exists_tagSource htag
    refine ⟨s, ⟨hof.start_eq.symm, ?_, hof.ofText_eq, ?_⟩, hended⟩
    · show s.name = tag.name.toList
      rw [hof.name_eq, String.toList_ofList]
    · show Element.labelOf tag.name (Attributes.ofText tag.attributeText) = _
      rw [hof.ofText_eq]
      rfl
  · rintro name q _ sketch ⟨s, h, hended⟩
    exact ⟨s, hmoved q sketch s h, hended⟩
  · rintro sketch ⟨s, h, hended⟩
    exact ⟨s, hmoved _ sketch s h, hended⟩

/-- A start tag that is put together from the lines of a text, and of which name and ending mark are
cut off, is that of a name and of raw text in the source. -/
theorem exists_isOf_of_mem_tokens {text : String} {tag : StartTag}
    (h : .startTag tag ∈ LineCursor.tokens (.ofLines (Text.lines text.toList))) :
    ∃ s : TagSource text, tag.IsOf s.name s.raw s.close s.start := by
  obtain ⟨tag', hmem, hsketch, hclosed⟩ := LineCursor.exists_startTag_mem_tokensOf h
  obtain ⟨s, hof, -⟩ := exists_tagSource hmem
  exact ⟨s, (congrArg Sketch.tag hsketch).trans hof.name_eq,
    (congrArg Sketch.start hsketch).trans hof.start_eq,
    (congrArg Sketch.attributes hsketch).trans hof.ofText_eq, hclosed.trans hof.closed_iff⟩

/-- Every start tag that is put together from the lines of a text has the name, the place and the
attributes of a start tag in the source, and closes itself if and only if that one does.

At the start of every element there is a start tag in the source, with the tag of the element
for a name. The attributes of the element are those of the raw text behind the name, line ends
included, up to the `/>`, the `>` or the end of the text that ends the tag, and its label is that of
its tag and these attributes. Any run of blanks in the raw text may be replaced by another: the tag
has the same extent again and ends alike, and the new text is read as the same elements, nested and
ordered alike, bounds aside. The element that starts at the tag is the same. -/
theorem read_layout (text : String) :
    (∀ tag, .startTag tag ∈ LineCursor.tokens (.ofLines (Text.lines text.toList)) →
      ∃ s : TagSource text, tag.IsOf s.name s.raw s.close s.start) ∧
    ∃ forest, (read false text).outcome = .ok forest ∧
      ∀ e ∈ values forest, (∃ s : TagSource text, s.start = e.span.start) ∧
        ∀ s : TagSource text, s.start = e.span.start →
          s.name = e.tag.toList ∧
          e.attributes = Attributes.ofText s.raw ∧
          e.label = Element.labelOf e.tag (Attributes.ofText s.raw) ∧
          ∀ raw', Text.Respaced s.raw raw' →
            Extent raw' s.close s.behind ∧
            ∃ forest', (read false (s.textWith raw')).outcome = .ok forest' ∧
              map (Element.faceAt s.start) forest' = map (Element.faceAt s.start) forest := by
  obtain ⟨forest, hforest⟩ := exists_map_sketchOf_eq_prune text
  refine ⟨fun _ => exists_isOf_of_mem_tokens, forest, outcome_read_false hforest, fun e he => ?_⟩
  obtain ⟨s, hsketches, hended⟩ := exists_sketches hforest he
  refine ⟨⟨s, hsketches.start_eq⟩, fun s' hs' => ?_⟩
  obtain rfl : s = s' := TagSource.eq_of_start_eq (hsketches.start_eq.trans hs'.symm)
  refine ⟨hsketches.name_eq, hsketches.attributes_eq, hsketches.label_eq,
    fun raw' h => ⟨s.extent.respaced h, ?_⟩⟩
  obtain ⟨forest', hforest'⟩ := exists_map_sketchOf_eq_prune (s.textWith raw')
  exact ⟨forest', outcome_read_false hforest',
    map_faceAt_eq_of_alike hforest hforest' (s.forall₂_alike_respace hended h)⟩

end Markup

end MarkupOutline
