import MarkupOutline.Proofs.WellFormed
import MarkupOutline.Proofs.Writable

/-!
# Writing forests down

A forest of elements can be written down in plain markup: a pair of tags for an element with
something below it, a single tag for any other, and nothing else. Of what has been read of any
text, however malformed, this is a well-formed document (`exists_content_print_eq`), and reading it
gives the forest back, bounds aside (`read_serialize`).
-/

namespace MarkupOutline

open Forest

/-! ## The text of a forest -/

/-- The text of an attribute, with its value in double quotation marks, or in single ones if there
are double ones in it. -/
def serializeAttribute (entry : String × String) : List Char :=
  let value := entry.2.toList
  let quote := if '"' ∈ value then '\'' else '"'
  ' ' :: (entry.1.toList ++ '=' :: quote :: (value ++ [quote]))

/-- The beginning of a start tag: its name and its attributes. -/
def serializeTag (e : Element) : List Char :=
  '<' :: (e.tag.toList ++ e.attributes.entries.flatMap serializeAttribute)

/-- The text of an element, given the texts of those directly below it. -/
def serializeElement (e : Element) (below : List (List Char)) : List Char :=
  serializeTag e ++
    if below = [] then ['/', '>']
    else '>' :: (below.flatten ++ '<' :: '/' :: (e.tag.toList ++ ['>']))

/-- The text of a forest. -/
def serialize (ts : Forest Element) : List Char :=
  (fold serializeElement ts).flatten

/-- What an element is apart from its bounds: its tag, its attributes in order, its label and its
kind. -/
def Element.face (e : Element) : String × Attributes × String × Kind :=
  (e.tag, e.attributes, e.label, e.kind)

theorem serialize_cons (t : Tree Element) (ts : Forest Element) :
    serialize (t :: ts) = serializeTag t.value ++
      ((if t.children = [] then ['/', '>']
        else '>' :: (serialize t.children ++ '<' :: '/' :: (t.value.tag.toList ++ ['>']))) ++
        serialize ts) := by
  have hempty : fold serializeElement t.children = [] ↔ t.children = [] := by
    rw [← List.length_eq_zero_iff, length_fold, List.length_eq_zero_iff]
  simp only [serialize, fold_cons, List.flatten_cons, serializeElement, hempty, List.append_assoc]

namespace Markup

/-! ## Tags -/

/-- What a sketch is apart from its bounds. -/
def Sketch.face (s : Sketch) : String × Attributes × String × Kind :=
  (s.tag, s.attributes, s.label, s.kind)

/-- An attribute that can be written is printed as its text, and stands for itself. -/
theorem exists_attributeText {entry : String × String} (h : AttributeWritable entry) :
    ∃ a : AttributeText, a.print = serializeAttribute entry ∧ a.entry = entry := by
  obtain ⟨key, hkey⟩ := h.key
  let quote := if '"' ∈ entry.2.toList then '\'' else '"'
  have hquote : Attributes.isQuote quote ∧ quote ∉ entry.2.toList := by
    by_cases hdouble : '"' ∈ entry.2.toList
    · have hsingle : quote = '\'' := if_pos hdouble
      rw [hsingle]
      exact ⟨rfl, h.quote.resolve_left (not_not.2 hdouble)⟩
    · have hsingle : quote = '"' := if_neg hdouble
      rw [hsingle]
      exact ⟨rfl, hdouble⟩
  refine ⟨⟨⟨[' '], List.forall_mem_singleton.2 rfl⟩, List.cons_ne_nil _ _, key, ⟨[], by simp⟩,
    ⟨[], by simp⟩, quote, hquote.1, entry.2.toList, hquote.2⟩, ?_, ?_⟩
  · rw [serializeAttribute, hkey, NameText.name, String.toList_ofList]
    rfl
  · rw [AttributeText.entry, h.collapse_eq, String.ofList_toList, ← hkey]

/-- The tag of an element that can be written is printed as its text, and gives the element its
attributes. -/
theorem exists_tagText {e : Element} (h : e.Writable) :
    ∃ t : TagText, '<' :: (t.name.chars ++ t.body) = serializeTag e ∧ t.name.chars = e.tag.toList ∧
      ∀ start stop, (t.sketch start stop).face = e.face := by
  obtain ⟨name, hname⟩ := h.tag
  have hattributes : ∀ entries : List (String × String),
      (∀ entry ∈ entries, AttributeWritable entry) →
        ∃ texts : List AttributeText, texts.flatMap AttributeText.print =
          entries.flatMap serializeAttribute ∧ texts.map AttributeText.entry = entries := by
    intro entries hentries
    induction entries with
    | nil => exact ⟨[], rfl, rfl⟩
    | cons entry entries ih =>
      rw [List.forall_mem_cons] at hentries
      obtain ⟨a, hprint, hentry⟩ := exists_attributeText hentries.1
      obtain ⟨texts, hprints, hmap⟩ := ih hentries.2
      refine ⟨a :: texts, ?_, ?_⟩
      · rw [List.flatMap_cons, List.flatMap_cons, hprint, hprints]
      · rw [List.map_cons, hentry, hmap]
  obtain ⟨texts, hprint, hmap⟩ := hattributes e.attributes.entries h.attributes
  refine ⟨⟨name, texts, ⟨[], by simp⟩⟩, ?_, ?_, fun start stop => ?_⟩
  · rw [serializeTag, hname, NameText.name, String.toList_ofList, TagText.body, List.append_nil,
      hprint]
  · rw [hname, NameText.name, String.toList_ofList]
  · rw [TagText.sketch, hmap, Attributes.ofList_entries, ← hname]
    show (e.tag, e.attributes, Element.labelOf e.tag e.attributes, Kind.ofTag e.tag) = e.face
    rw [← h.label, ← h.kind]
    rfl

/-! ## Documents -/

/-- A forest of elements that can be written is printed as its text. The document stands for the
same forest, bounds aside. -/
theorem exists_content_print_eq {ts : Forest Element} (h : ∀ e ∈ values ts, e.Writable) :
    ∃ c : Content, c.print = serialize ts ∧
      ∀ p, map Sketch.face (c.elements p) = map Element.face ts := by
  induction ts using Forest.induct with
  | nil => exact ⟨.nil, by simp [Content.print, serialize], fun p => by simp [Content.elements]⟩
  | cons t ts below beside =>
    rw [values_cons, List.forall_mem_cons, List.forall_mem_append] at h
    obtain ⟨htag, hbelow, hbeside⟩ := h
    obtain ⟨tag, hprint, hname, hface⟩ := exists_tagText htag
    obtain ⟨inside, hinside, hinsideFace⟩ := below hbelow
    obtain ⟨rest, hrest, hrestFace⟩ := beside hbeside
    have hstart : ∀ closed, tag.print closed =
        serializeTag t.value ++ (TagText.slash closed ++ ['>']) := by
      intro closed
      rw [← hprint, TagText.print, List.cons_append, List.append_assoc]
    by_cases hempty : t.children = []
    · refine ⟨.closed tag rest, ?_, fun p => ?_⟩
      · rw [Content.print, hstart, hrest, serialize_cons, if_pos hempty, List.append_assoc]
        rfl
      · rw [Content.elements, map_cons, map_cons, hface, hrestFace, hempty, map_nil, map_nil]
    · refine ⟨.element tag inside ⟨[], by simp⟩ rest, ?_, fun p => ?_⟩
      · rw [Content.print, hstart, hinside, hrest, serialize_cons, if_neg hempty, TagText.printEnd,
          hname, List.append_assoc]
        simp [TagText.slash]
      · rw [Content.elements, map_cons, map_cons, hface, hinsideFace, hrestFace]

/-- Nothing is pruned from a forest of tags that make elements. -/
theorem prune_eq_self {ts : Forest Sketch} (h : ∀ s ∈ values ts, isShownTag s.tag = true) :
    prune ts = ts := by
  induction ts using Forest.induct with
  | nil => exact prune_nil
  | cons t ts below beside =>
    rw [values_cons, List.forall_mem_cons, List.forall_mem_append] at h
    obtain ⟨htag, hbelow, hbeside⟩ := h
    rw [isShownTag, Bool.and_eq_true, Bool.not_eq_true', Bool.not_eq_true'] at htag
    rw [prune_cons, htag.1, htag.2, below hbelow, beside hbeside]
    cases t
    rfl

/-- A document that is all well-formed content is read strictly or not. -/
theorem outcome_read_print {c : Content} {forest : Forest Element}
    (h : map sketchOf forest = prune (c.elements .origin)) (strict : Bool) :
    (read strict (String.ofList c.print)).outcome = .ok forest := by
  let stop := (Cursor.ofText c.print).atEnd.position
  let lines := Text.lineCount c.print
  have hrun := assemble_content strict lines stop [] c .empty .origin []
  have hend : Token.readAll ⟨Position.origin.afterAll c.print, Text.withLineFeeds []⟩ = [] :=
    Token.readAll_eq_nil rfl
  rw [List.append_nil, ofNest_empty, hend] at hrun
  have hbuild : (Assembly.ofNest (Nest.empty.add (c.elements .origin)) []).forest stop =
      .ok forest := forest_ofNest _ [] _ h
  rw [read_eq, endOf, tokensOf, String.toList_ofList]
  refine (congrArg Reading.outcome hrun).trans ?_
  rw [assemble, hbuild]

/-- Whatever the text, every value of an attribute that is read from it lacks one of the two
quotation marks and has no blanks in it but single spaces, and the forest can be written down: its
text is read without a mismatch, strictly or not, and comes to a forest with the same tags,
attributes in the same order, labels and kinds, nested alike. -/
theorem read_serialize (text : String) :
    ∃ forest, (read false text).outcome = .ok forest ∧
      (∀ e ∈ values forest, ∀ entry ∈ e.attributes.entries,
        ('"' ∉ entry.2.toList ∨ '\'' ∉ entry.2.toList) ∧
        (∀ c ∈ entry.2.toList, Text.isBlank c → c = ' ') ∧ ¬ [' ', ' '] <:+: entry.2.toList) ∧
      ∃ forest',
        (∀ strict, (read strict (String.ofList (serialize forest))).outcome = .ok forest') ∧
        map Element.face forest' = map Element.face forest := by
  obtain ⟨forest, hforest⟩ := exists_map_sketchOf_eq_prune text
  have hwritable : ∀ e ∈ values forest, e.Writable := fun e => writable_of_read hforest
  obtain ⟨c, hprint, hface⟩ := exists_content_print_eq hwritable
  have hshown : ∀ s ∈ values (c.elements .origin), isShownTag s.tag = true := by
    intro s hs
    have hmem : s.face ∈ values (map Element.face forest) := by
      rw [← hface .origin, values_map]
      exact List.mem_map_of_mem hs
    rw [values_map] at hmem
    obtain ⟨e, he, heq⟩ := List.mem_map.1 hmem
    have htag : e.tag = s.tag := congrArg Prod.fst heq
    rw [← htag]
    exact (hwritable e he).isShown
  obtain ⟨forest', hforest'⟩ := (c.laid_elements .origin).prune.exists_map_sketchOf_eq
  refine ⟨forest, outcome_read_false hforest, fun e he entry hentry => ?_, forest',
    fun strict => ?_, ?_⟩
  · have hentry := (hwritable e he).attributes entry hentry
    exact ⟨hentry.quote, hentry.blank, hentry.single⟩
  · rw [← hprint]
    exact outcome_read_print hforest' strict
  · have hmap : map Element.face forest' = map Sketch.face (map sketchOf forest') := by
      rw [map_map]
      rfl
    rw [hmap, hforest', prune_eq_self hshown, hface]

/-- Tags that were left open are closed, and each value stands in quotation marks that fit. -/
example : String.ofList (serialize
      (read false "<Grid a = 'say \"hi\"'\n  b=\"1\t\n2\"><Border").forest) =
    "<Grid a='say \"hi\"' b=\"1 2\"><Border/></Grid>" := by
  decide +kernel

end Markup

end MarkupOutline
