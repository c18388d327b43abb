import MarkupOutline.Proofs.Likeness
import MarkupOutline.Proofs.Serialized

/-!
# Closing what is left open

A text may leave tags open; what they have opened ends with the text. The end tags that are missing
can be written on a line of their own behind it, the innermost first (`withEndTags`). If the text
does not end inside a token, this makes no difference but to where the open elements end
(`read_withEndTags`): whatever the text ends with, it does not run into the end tags.
-/

namespace MarkupOutline

open Forest

/-- What an element is where it begins. -/
def Element.opening (e : Element) : (String × Attributes × String × Kind) × Position :=
  (e.face, e.span.start)

namespace Markup

open Nest

/-! ## End tags behind a text -/

/-- End tags of the given names, one behind the other. -/
def endTags : List String → String
  | [] => ""
  | name :: names => "</" ++ name ++ ">" ++ endTags names

/-- The text with end tags for all tags that it leaves open, on a line of their own. -/
def withEndTags (text : String) : String :=
  text ++ "\n" ++ endTags ((assemblyOf text).openTags.map (·.tag))

/-- The place behind an end tag that stands at `p`. -/
def behindEndTag (p : Position) (name : String) : Position :=
  p.afterAll ("</" ++ name ++ ">").toList

/-- The tokens of end tags that stand one behind the other from `p` on. -/
def endTagTokens (p : Position) : List String → List Token
  | [] => []
  | name :: names => .endTag name (behindEndTag p name) :: endTagTokens (behindEndTag p name) names

theorem return_not_mem_endTags {names : List String} (h : ∀ name ∈ names, ∃ n : NameText, name = n.name) :
    '\r' ∉ (endTags names).toList := by
  induction names with
  | nil => simp [endTags]
  | cons name names ih =>
    rw [List.forall_mem_cons] at h
    obtain ⟨⟨n, rfl⟩, hnames⟩ := h
    have hname : '\r' ∉ n.name.toList := by
      rw [NameText.name, String.toList_ofList]
      exact n.not_mem_chars (by decide)
    simp [endTags, hname, ih hnames]

theorem withLineFeeds_endTags {names : List String}
    (h : ∀ name ∈ names, ∃ n : NameText, name = n.name) :
    Text.withLineFeeds (endTags names).toList = (endTags names).toList := by
  have hfeeds := Text.withLineFeeds_append_of_not_mem (return_not_mem_endTags h) []
  rwa [List.append_nil, Text.withLineFeeds_nil, List.append_nil] at hfeeds

theorem readAll_endTags {names : List String} (h : ∀ name ∈ names, ∃ n : NameText, name = n.name)
    (p : Position) :
    Token.readAll ⟨p, Text.withLineFeeds (endTags names).toList⟩ = endTagTokens p names := by
  induction names generalizing p with
  | nil => exact Token.readAll_eq_nil rfl
  | cons name names ih =>
    rw [List.forall_mem_cons] at h
    obtain ⟨⟨n, rfl⟩, hnames⟩ := h
    have hprint : ("</" ++ n.name ++ ">").toList =
        TagText.printEnd ⟨n, [], ⟨[], by simp⟩⟩ ⟨[], by simp⟩ := by
      simp [TagText.printEnd, NameText.name]
    have hread := Token.readAll_endTag ⟨n, [], ⟨[], by simp⟩⟩ ⟨[], by simp⟩ p (endTags names).toList
    rw [← hprint] at hread
    rw [endTags, String.toList_append, hread, endTagTokens]
    exact congrArg (_ :: ·) (ih hnames _)

/-! ## Closing the nest -/

/-- The open values of a nest, each ended behind an end tag of its own. The end tags stand one behind
the other from `p` on, the innermost first. -/
def endAtTags (p : Position) : List (Forest Sketch × Sketch) → List (Forest Sketch × Sketch)
  | [] => []
  | (front, s) :: rest =>
    (front, s.endAt (behindEndTag p s.tag)) :: endAtTags (behindEndTag p s.tag) rest

theorem fullNest_endTagTokens (p : Position) (inside : Forest Sketch)
    (around : List (Forest Sketch × Sketch)) :
    fullNest ⟨inside, around⟩ (endTagTokens p (around.map (·.2.tag))) =
      ⟨wholeOf id inside (endAtTags p around), []⟩ := by
  induction around generalizing p inside with
  | nil => rfl
  | cons o rest ih => exact ih (behindEndTag p o.2.tag) _

/-- Each end tag bears the name of the tag that it closes. -/
theorem firstMismatch?_endTagTokens (p : Position) (inside : Forest Sketch)
    (around : List (Forest Sketch × Sketch)) (notices : List Notice) :
    firstMismatch? (.ofNest ⟨inside, around⟩ notices) (endTagTokens p (around.map (·.2.tag))) =
      none := by
  induction around generalizing p inside notices with
  | nil => rfl
  | cons o rest ih =>
    obtain ⟨front, s⟩ := o
    have hmatch : (Assembly.ofNest ⟨inside, (front, s) :: rest⟩ notices).mismatch?
        (.endTag s.tag (behindEndTag p s.tag)) = none := if_pos rfl
    rw [List.map_cons, endTagTokens, firstMismatch?, hmatch, step_ofNest]
    exact ih (behindEndTag p s.tag) _ _

theorem map_tag_openTagsOf (around : List (Forest Sketch × Sketch)) :
    (openTagsOf around).map (·.tag) = around.map (·.2.tag) := by
  induction around with
  | nil => rfl
  | cons o rest ih =>
    rw [openTagsOf, List.map_cons, List.map_cons, ih]

theorem isHidden_endAtTags (p : Position) (around : List (Forest Sketch × Sketch)) :
    isHidden (endAtTags p around) = isHidden around := by
  induction around generalizing p with
  | nil => rfl
  | cons o rest ih =>
    rw [endAtTags, isHidden_cons, isHidden_cons, ih]
    rfl

/-! ## What is left open, closed in two ways -/

/-- Open tags, innermost first, each with the place behind its end tag. -/
def endTagPlaces (p : Position) : List OpenTag → List (OpenTag × Position)
  | [] => []
  | o :: rest => (o, behindEndTag p o.tag) :: endTagPlaces (behindEndTag p o.tag) rest

/-- The end tag of an open tag ends behind those of the tags inside it and its own. -/
theorem mem_endTagPlaces (p : Position) (inner : List OpenTag) (o : OpenTag)
    (outer : List OpenTag) :
    (o, p.afterAll (endTags ((inner ++ [o]).map (·.tag))).toList) ∈
      endTagPlaces p (inner ++ o :: outer) := by
  induction inner generalizing p with
  | nil => simp [endTagPlaces, endTags, behindEndTag]
  | cons first inner ih =>
    have hplace : p.afterAll (endTags (((first :: inner) ++ [o]).map (·.tag))).toList =
        (behindEndTag p first.tag).afterAll (endTags ((inner ++ [o]).map (·.tag))).toList := by
      rw [behindEndTag, ← Position.afterAll_append, ← String.toList_append]
      rfl
    rw [hplace, List.cons_append, endTagPlaces]
    exact List.mem_cons_of_mem _ (ih _)

theorem mem_of_mem_endTagPlaces {p : Position} {tags : List OpenTag} {place : OpenTag × Position}
    (h : place ∈ endTagPlaces p tags) : place.1 ∈ tags := by
  induction tags generalizing p with
  | nil => exact absurd h List.not_mem_nil
  | cons o rest ih =>
    rw [endTagPlaces] at h
    rcases List.mem_cons.1 h with rfl | h
    · exact List.mem_cons_self
    · exact List.mem_cons_of_mem o (ih h)

/-- The values of two forests that differ in where the parts of open tags end: in the first they all
end at `stop`, and in the second each at a place of its own. -/
inductive Reclosed (stop : Position) : List (OpenTag × Position) → List Sketch → List Sketch → Prop
  | nil (xs : List Sketch) : Reclosed stop [] xs xs
  | unseen {places : List (OpenTag × Position)} {xs ys : List Sketch} {o : OpenTag} {q : Position}
      (h : Reclosed stop places xs ys) (hpart : o.part = none) (more : List Sketch) :
      Reclosed stop ((o, q) :: places) (xs ++ more) (ys ++ more)
  | seen {places : List (OpenTag × Position)} {xs ys : List Sketch} {o : OpenTag} {q : Position}
      (h : Reclosed stop places xs ys) (hpart : o.part = some xs.length) {s : Sketch}
      (htag : s.tag = o.tag) (more : List Sketch) :
      Reclosed stop ((o, q) :: places) (xs ++ s.endAt stop :: more) (ys ++ s.endAt q :: more)

namespace Reclosed

variable {stop : Position} {places : List (OpenTag × Position)} {xs ys : List Sketch}

theorem length_eq (h : Reclosed stop places xs ys) : ys.length = xs.length := by
  induction h with
  | nil xs => rfl
  | unseen _ _ more ih => rw [List.length_append, List.length_append, ih]
  | seen _ _ _ more ih =>
    rw [List.length_append, List.length_append, ih, List.length_cons, List.length_cons]

/-- The part of an open tag ends at `stop`, or at the place of the tag. -/
theorem exists_getElem? (h : Reclosed stop places xs ys) {o : OpenTag} {q : Position}
    (hmem : (o, q) ∈ places) {i : Nat} (hi : o.part = some i) :
    ∃ s : Sketch, xs[i]? = some (s.endAt stop) ∧ ys[i]? = some (s.endAt q) ∧ s.tag = o.tag := by
  have hfront : ∀ {xs : List Sketch} {s : Sketch} (zs : List Sketch), xs[i]? = some s →
      (xs ++ zs)[i]? = some s := by
    intro xs s zs hs
    rw [List.getElem?_append_left (List.getElem?_eq_some_iff.1 hs).1, hs]
  induction h with
  | nil xs => simp at hmem
  | @unseen places xs ys o' q' h hpart more ih =>
    rcases List.mem_cons.1 hmem with heq | hmem
    · obtain ⟨rfl, rfl⟩ := Prod.mk.inj heq
      rw [hpart] at hi
      exact absurd hi (by simp)
    · obtain ⟨s, hx, hy, htag⟩ := ih hmem
      exact ⟨s, hfront more hx, hfront more hy, htag⟩
  | @seen places xs ys o' q' h hpart s' htag' more ih =>
    rcases List.mem_cons.1 hmem with heq | hmem
    · obtain ⟨rfl, rfl⟩ := Prod.mk.inj heq
      obtain rfl : xs.length = i := Option.some.inj (hpart.symm.trans hi)
      refine ⟨s', ?_, ?_, htag'⟩
      · simp
      · rw [← h.length_eq]
        simp
    · obtain ⟨s, hx, hy, htag⟩ := ih hmem
      exact ⟨s, hfront _ hx, hfront _ hy, htag⟩

/-- All other values are the same. -/
theorem getElem?_eq (h : Reclosed stop places xs ys) {i : Nat}
    (hi : ∀ o ∈ places, o.1.part ≠ some i) : ys[i]? = xs[i]? := by
  induction h with
  | nil xs => rfl
  | @unseen places xs ys o q h hpart more ih =>
    rw [List.forall_mem_cons] at hi
    rw [List.getElem?_append, List.getElem?_append, h.length_eq, ih hi.2]
  | @seen places xs ys o q h hpart s htag more ih =>
    rw [List.forall_mem_cons] at hi
    have hne : i ≠ xs.length := fun heq => hi.1 (heq ▸ hpart)
    rw [List.getElem?_append, List.getElem?_append, h.length_eq, ih hi.2]
    split
    · rfl
    · next hle =>
      -- behind the part itself the same values follow
      obtain ⟨k, hk⟩ : ∃ k, i - xs.length = k + 1 := ⟨i - xs.length - 1, by omega⟩
      rw [hk, List.getElem?_cons_succ, List.getElem?_cons_succ]

end Reclosed

/-- What is shown of a nest has the same values, whether all that is open ends at `stop` or each open
value behind its end tag. -/
theorem reclosed_visibleOf (stop p : Position) (inside : Forest Sketch)
    (around : List (Forest Sketch × Sketch)) :
    Reclosed stop (endTagPlaces p (openTagsOf around))
      (values ((visibleOf inside around).whole (Sketch.endAt stop)))
      (values ((visibleOf inside (endAtTags p around)).whole id)) := by
  -- the end tags of the tags around begin behind that of the innermost, so `p` moves on
  induction around generalizing p inside with
  | nil => exact .nil _
  | cons o rest ih =>
    obtain ⟨front, s⟩ := o
    have hrest := ih (behindEndTag p s.tag) front
    have hhidden := isHidden_endAtTags p ((front, s) :: rest)
    rw [endAtTags] at hhidden ⊢
    rw [openTagsOf, endTagPlaces]
    rcases around_cases front s rest with h | ⟨h, hdot⟩ | ⟨h, hdot⟩
    · rw [visibleOf_hidden _ h, visibleOf_hidden _ (hhidden.trans h)]
      simpa only [List.append_nil] using hrest.unseen (by simp [h]) []
    · rw [visibleOf_dotted _ h hdot, visibleOf_dotted _ (hhidden.trans h) hdot, values_whole_add,
        values_whole_add]
      exact hrest.unseen (by simp [hdot]) _
    · rw [visibleOf_shown _ h hdot, visibleOf_shown _ (hhidden.trans h) hdot,
        values_whole_enter_add, values_whole_enter_add]
      -- its number is that of the values in front of it
      refine hrest.seen ?_ rfl _
      rw [length_values_whole]
      simp [h, hdot]

/-- The sketch without its end. -/
def Sketch.opened (s : Sketch) : Sketch :=
  { s with stop := .origin }

/-- All but the ends. -/
def Aspect.opening : Aspect where
  sketch := Sketch.opened
  place _ := .origin
  tag_sketch _ := rfl
  sketch_endAt _ _ := rfl

/-- End tags change nothing but ends. -/
theorem whole_nest_endTagTokens (n : Nest Sketch) (p : Position) (names : List String) :
    (Aspect.opening.nest (fullNest n (endTagTokens p names))).whole (Sketch.endAt .origin) =
      (Aspect.opening.nest n).whole (Sketch.endAt .origin) := by
  induction names generalizing n p with
  | nil => rfl
  | cons name names ih =>
    have hleave : Aspect.opening.nest (n.leave (Sketch.endAt (behindEndTag p name))) =
        (Aspect.opening.nest n).leave (Sketch.endAt .origin) :=
      behind_leave [] (Aspect.opening.sketch_endAt _) n
    refine (ih (n.leave (Sketch.endAt (behindEndTag p name))) (behindEndTag p name)).trans ?_
    rw [hleave, whole_leave]

/-! ## The text with its end tags -/

section

variable (text : String)

theorem openTags_assemblyOf :
    (assemblyOf text).openTags = openTagsOf (fullNest .empty (tokensOf text)).around := by
  obtain ⟨notices, hrun⟩ := exists_assemblyOf_eq text
  rw [hrun]
  rfl

/-- Open tags bear names. -/
theorem exists_name_of_mem_openTags :
    ∀ o ∈ (assemblyOf text).openTags, ∃ n : NameText, o.tag = n.name := by
  have hall : (fullNest .empty (tokensOf text)).All fun s => ∃ n : NameText, s.tag = n.name :=
    all_fullNest all_empty (fun _ htag => exists_name_of_mem_tokensOf htag) fun _ _ _ _ hs => hs
  intro o ho
  have htag : o.tag ∈ (openTagsOf (fullNest .empty (tokensOf text)).around).map (·.tag) := by
    rw [← openTags_assemblyOf]
    exact List.mem_map_of_mem ho
  rw [map_tag_openTagsOf] at htag
  obtain ⟨opened, hopened, heq⟩ := List.mem_map.1 htag
  rw [← heq]
  exact (hall.around opened hopened).1

/-- The place at which the line behind a text begins. -/
def nextLine : Position :=
  Position.origin.down (Text.lineCount text.toList)

theorem endOf_append_endTags {names : List String}
    (h : ∀ name ∈ names, ∃ n : NameText, name = n.name) :
    endOf (text ++ "\n" ++ endTags names) = (nextLine text).afterAll (endTags names).toList := by
  rw [endOf_append_line, nextLine, Position.afterAll_down, ← withLineFeeds_endTags h]
  rfl

variable {text} (hended : ∀ token ∈ tokensOf text, token.isEnded)
include hended

/-- The end tags are read as end tags, whatever stands in front of them. -/
theorem tokensOf_withEndTags : tokensOf (withEndTags text) = tokensOf text ++
    endTagTokens (nextLine text) ((fullNest .empty (tokensOf text)).around.map (·.2.tag)) := by
  have hnames : ∀ name ∈ (assemblyOf text).openTags.map (·.tag),
      ∃ n : NameText, name = n.name :=
    List.forall_mem_map.2 (exists_name_of_mem_openTags text)
  have hread : (tokensOf (endTags ((assemblyOf text).openTags.map (·.tag)))).map
      (Token.down (Text.lineCount text.toList)) =
        endTagTokens (nextLine text) ((assemblyOf text).openTags.map (·.tag)) := by
    rw [tokensOf, ← Token.readAll_down]
    exact readAll_endTags hnames _
  rw [withEndTags, tokensOf_append_line hended, hread, openTags_assemblyOf, map_tag_openTagsOf]

theorem fullNest_withEndTags : fullNest .empty (tokensOf (withEndTags text)) =
    fullNest (fullNest .empty (tokensOf text)) (endTagTokens (nextLine text)
      ((fullNest .empty (tokensOf text)).around.map (·.2.tag))) := by
  rw [tokensOf_withEndTags hended]
  exact List.foldl_append

theorem fullTreeOf_withEndTags : fullTreeOf (withEndTags text) =
    wholeOf id (fullNest .empty (tokensOf text)).inside
      (endAtTags (nextLine text) (fullNest .empty (tokensOf text)).around) := by
  rw [fullTreeOf, fullTree, fullNest_withEndTags hended, fullNest_endTagTokens]
  rfl

theorem firstMismatch?_withEndTags :
    firstMismatch? .empty (tokensOf (withEndTags text)) =
      firstMismatch? .empty (tokensOf text) := by
  obtain ⟨notices, hrun⟩ := exists_assemblyOf_eq text
  rw [assemblyOf] at hrun
  rw [tokensOf_withEndTags hended, firstMismatch?_append, hrun, firstMismatch?_endTagTokens,
    Option.or_none]

/-- But for the ends, the same elements are read. -/
theorem map_opened_prune_withEndTags :
    map Sketch.opened (prune (fullTreeOf (withEndTags text))) =
      map Sketch.opened (prune (fullTreeOf text)) := by
  have htree : ∀ t, map Sketch.opened (fullTreeOf t) =
      (Aspect.opening.nest (fullNest .empty (tokensOf t))).whole (Sketch.endAt .origin) :=
    fun t => Aspect.opening.map_sketch_whole _ (endOf t)
  -- with the ends out of sight, what has been closed by end tags is what the text would close
  have htag : ∀ s : Sketch, s.opened.tag = s.tag := fun _ => rfl
  rw [← prune_map htag, ← prune_map htag, htree, htree, fullNest_withEndTags hended,
    whole_nest_endTagTokens]

/-- The values that are read differ in where what the text leaves open ends. -/
theorem reclosed_withEndTags :
    Reclosed (endOf text) (endTagPlaces (nextLine text) (assemblyOf text).openTags)
      (values (prune (fullTreeOf text))) (values (prune (fullTreeOf (withEndTags text)))) := by
  have hclosed : prune (fullTreeOf text) = (visible (fullNest .empty (tokensOf text))).whole
      (Sketch.endAt (endOf text)) := prune_wholeOf (Sketch.endAt (endOf text)) (fun _ => rfl) _ _
  rw [openTags_assemblyOf, hclosed, fullTreeOf_withEndTags hended, prune_wholeOf id fun _ => rfl]
  exact reclosed_visibleOf _ _ _ _

end

/-- A text that does not end inside an aside or a start tag may leave tags open. With end tags for
all of them on a line of their own behind it, it is read as the same elements, nested and ordered
alike and beginning at the same places. What the text leaves open ends behind its own end tag, and
no longer with the text; all other elements are the same. The end tags make no mismatch: a strict
reading succeeds as before, or it fails as before. -/
theorem read_withEndTags (text : String) (hended : ∀ token ∈ tokensOf text, token.isEnded) :
    ∃ forest forest', (read false text).outcome = .ok forest ∧
      (read false (withEndTags text)).outcome = .ok forest' ∧
      map Element.opening forest' = map Element.opening forest ∧
      (∀ inner o outer, (assemblyOf text).openTags = inner ++ o :: outer →
        ∀ i, o.part = some i → ∃ e e', (values forest)[i]? = some e ∧
          (values forest')[i]? = some e' ∧ e.tag = o.tag ∧ e.span.stop = endOf text ∧
          e'.span.stop = endOf (text ++ "\n" ++ endTags ((inner ++ [o]).map (·.tag)))) ∧
      (∀ i, (∀ o ∈ (assemblyOf text).openTags, o.part ≠ some i) →
        (values forest')[i]? = (values forest)[i]?) ∧
      (read true (withEndTags text)).outcome =
        match (read true text).outcome with
        | .ok _ => .ok forest'
        | .error failure => .error failure := by
  obtain ⟨forest, hforest⟩ := exists_map_sketchOf_eq_prune text
  obtain ⟨forest', hforest'⟩ := exists_map_sketchOf_eq_prune (withEndTags text)
  have hvalues := reclosed_withEndTags hended
  rw [← hforest, ← hforest', values_map, values_map] at hvalues
  refine ⟨forest, forest', outcome_read_false hforest, outcome_read_false hforest', ?_, ?_, ?_, ?_⟩
  · have hopening : ∀ ts : Forest Element, map Element.opening ts =
        map (fun s => (s.face, s.start)) (map Sketch.opened (map sketchOf ts)) := by
      intro ts
      rw [map_map, map_map]
      rfl
    rw [hopening, hopening, hforest, hforest', map_opened_prune_withEndTags hended]
  · intro inner o outer hsplit i hi
    have hmem := mem_endTagPlaces (nextLine text) inner o outer
    rw [← hsplit] at hmem
    obtain ⟨s, hs, hs', htag⟩ := hvalues.exists_getElem? hmem hi
    rw [List.getElem?_map, Option.map_eq_some_iff] at hs hs'
    obtain ⟨e, he, hsketch⟩ := hs
    obtain ⟨e', he', hsketch'⟩ := hs'
    have hnames : ∀ name ∈ (inner ++ [o]).map (·.tag), ∃ n : NameText, name = n.name := by
      rw [List.forall_mem_map]
      intro o' ho'
      refine exists_name_of_mem_openTags text o' ?_
      rw [hsplit, List.append_cons]
      exact List.mem_append_left _ ho'
    refine ⟨e, e', he, he', ?_, ?_, ?_⟩
    · rw [← htag]
      exact congrArg Sketch.tag hsketch
    · exact congrArg Sketch.stop hsketch
    · rw [endOf_append_endTags text hnames]
      exact congrArg Sketch.stop hsketch'
  · intro i hi
    have hplaces : ∀ place ∈ endTagPlaces (nextLine text) (assemblyOf text).openTags,
        place.1.part ≠ some i := fun place hplace => hi _ (mem_of_mem_endTagPlaces hplace)
    have hsame := hvalues.getElem?_eq hplaces
    rw [List.getElem?_map, List.getElem?_map] at hsame
    exact Option.map_injective (fun _ _ => sketchOf_injective) hsame
  · rw [outcome_read_true, outcome_read_true, firstMismatch?_withEndTags hended,
      outcome_read_false hforest, outcome_read_false hforest']
    cases firstMismatch? .empty (tokensOf text) with
    | some m => rfl
    | none => rfl

/-- The text ends in half an end tag. It leaves five tags open: a tag in a definition block, the
block, an element, and a property element and an element around it. The inner one of the two
elements ends behind the third end tag, which is its own. -/
theorem read_withEndTags_five :
    (∀ token ∈ tokensOf "<G>\n<G.R><B></W><P><Style><C></N", token.isEnded) ∧
      withEndTags "<G>\n<G.R><B></W><P><Style><C></N" =
        "<G>\n<G.R><B></W><P><Style><C></N\n</C></Style></P></G.R></G>" ∧
      (read true (withEndTags "<G>\n<G.R><B></W><P><Style><C></N")).outcome =
        .error (.mismatch ⟨"B", "W", 1⟩) ∧
      ∃ forest' e',
        (read false (withEndTags "<G>\n<G.R><B></W><P><Style><C></N")).outcome = .ok forest' ∧
        (values forest')[2]? = some e' ∧ e'.span.stop = ⟨2, 16⟩ := by
  have hended : ∀ token ∈ tokensOf "<G>\n<G.R><B></W><P><Style><C></N", token.isEnded := by
    decide +kernel
  have hopen : (assemblyOf "<G>\n<G.R><B></W><P><Style><C></N").openTags =
      [⟨"C", none, false⟩, ⟨"Style", none, true⟩] ++ ⟨"P", some 2, false⟩ ::
        [⟨"G.R", none, false⟩, ⟨"G", some 0, false⟩] := by decide +kernel
  have hfails : (read true "<G>\n<G.R><B></W><P><Style><C></N").outcome =
      .error (.mismatch ⟨"B", "W", 1⟩) := by decide +kernel
  have hplace : endOf ("<G>\n<G.R><B></W><P><Style><C></N" ++ "\n" ++
      endTags ["C", "Style", "P"]) = ⟨2, 16⟩ := by decide +kernel
  obtain ⟨_, forest', _, hforest', _, hclosed, _, hstrict⟩ := read_withEndTags _ hended
  obtain ⟨_, e', _, he', _, _, hstop⟩ := hclosed _ _ _ hopen 2 rfl
  rw [hfails] at hstrict
  exact ⟨hended, by decide +kernel, hstrict, forest', e', hforest', he', hstop.trans hplace⟩

end Markup

end MarkupOutline
