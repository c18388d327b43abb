import MarkupOutline.Proofs.Strictness

/-!
# Well nested forests

Whatever the text, the elements read from it have spans that are not empty, that stand one behind
the other among siblings, and that enclose the spans of what is inside. All of it is read off the
layout of the pruned full tree (`Laid`).
-/

namespace MarkupOutline.Markup

open Forest

/-- Trees side by side, none of which starts before those in front of it have ended. -/
def InOrder (ts : Forest Element) : Prop :=
  ts.Pairwise fun s t => s.value.span.stop ≤ t.value.span.start

/-- An element in its place: its span is not empty and encloses those of its children, which start
behind its own start and stand in order; and its tag is one that is shown. -/
structure WellPlaced (t : Tree Element) : Prop where
  start_lt_stop : t.value.span.start < t.value.span.stop
  start_lt_child : ∀ c ∈ t.children, t.value.span.start < c.value.span.start
  encloses_child : ∀ c ∈ t.children, t.value.span.Encloses c.value.span
  inOrder : InOrder t.children
  not_dotted : '.' ∉ t.value.tag.toList
  not_definition : isDefinitionTag t.value.tag = false

/-! ## The tags that are left -/

/-- Pruning leaves tags alone that are shown. -/
theorem isShownTag_of_mem_subtrees_prune {ts : Forest Sketch} {t : Tree Sketch}
    (h : t ∈ subtrees (prune ts)) : isShownTag t.value.tag = true := by
  induction ts using Forest.induct with
  | nil => simp at h
  | cons u us below beside =>
    rw [prune_cons, subtrees_append, List.mem_append] at h
    rcases h with h | h
    · by_cases hdef : isDefinitionTag u.value.tag
      · simp [hdef] at h
      · by_cases hdot : Name.isDotted u.value.tag
        · rw [if_neg hdef, if_pos hdot] at h
          exact below h
        · rw [if_neg hdef, if_neg hdot, subtrees_cons, subtrees_nil, List.append_nil,
            List.mem_cons] at h
          rcases h with rfl | h
          · simp [isShownTag, hdef, hdot]
          · exact below h
    · exact beside h

/-! ## What the layout says about spans -/

variable {lo hi : Position} {ts : Forest Element}

/-- The trees of a layout lie between its bounds, each with its content inside it. -/
theorem Laid.of_mem (h : Laid lo hi (map sketchOf ts)) {t : Tree Element} (ht : t ∈ ts) :
    lo ≤ t.value.span.start ∧ t.value.span.stop ≤ hi ∧
      ∃ q, t.value.span.start < q ∧ Laid q t.value.span.stop (map sketchOf t.children) := by
  induction ts generalizing lo with
  | nil => simp at ht
  | cons u us ih =>
    rw [map_cons] at h
    cases h with
    | @cons _ q _ _ _ hstart hinside below beside =>
      rcases List.mem_cons.1 ht with rfl | ht
      · exact ⟨hstart, beside.le, q, hinside, below⟩
      · obtain ⟨hle, hge, hcontent⟩ := ih beside ht
        have hlt := Position.lt_of_lt_of_le hinside below.le
        exact ⟨Position.le_trans hstart (Position.le_trans (Position.le_of_lt hlt) hle), hge,
          hcontent⟩

theorem Laid.inOrder (h : Laid lo hi (map sketchOf ts)) : InOrder ts := by
  induction ts generalizing lo with
  | nil => exact List.Pairwise.nil
  | cons u us ih =>
    rw [map_cons] at h
    cases h with
    | cons hstart hinside below beside =>
      exact List.Pairwise.cons (fun t ht => (beside.of_mem ht).1) (ih beside)

/-- Every subtree of a layout has its own content laid out behind its start. -/
theorem Laid.of_mem_subtrees (h : Laid lo hi (map sketchOf ts)) {t : Tree Element}
    (ht : t ∈ subtrees ts) :
    ∃ q, t.value.span.start < q ∧ Laid q t.value.span.stop (map sketchOf t.children) := by
  induction ts using Forest.induct generalizing lo hi with
  | nil => simp at ht
  | cons u us below beside =>
    have hhead := (h.of_mem (t := u) List.mem_cons_self).2.2
    rw [subtrees_cons, List.mem_cons, List.mem_append] at ht
    rcases ht with rfl | ht | ht
    · exact hhead
    · obtain ⟨q, _, hcontent⟩ := hhead
      exact below hcontent ht
    · rw [map_cons] at h
      cases h with
      | cons _ _ _ hbeside => exact beside hbeside ht

/-- The starts of a layout increase in depth-first pre-order, between its bounds. -/
theorem Laid.pairwise_start (h : Laid lo hi (map sketchOf ts)) :
    (values ts).Pairwise (fun e f => e.span.start < f.span.start) ∧
      ∀ e ∈ values ts, lo ≤ e.span.start ∧ e.span.start < hi := by
  induction ts using Forest.induct generalizing lo hi with
  | nil => simp
  | cons u us below beside =>
    rw [map_cons] at h
    cases h with
    | @cons _ q _ _ _ hstart hinside hbelow hbeside =>
      obtain ⟨hinner, hinnerBounds⟩ := below hbelow
      obtain ⟨houter, houterBounds⟩ := beside hbeside
      have hlt : u.value.span.start < u.value.span.stop :=
        Position.lt_of_lt_of_le hinside hbelow.le
      rw [values_cons]
      -- the element starts first, then come those inside it, and its siblings behind its end
      constructor
      · refine List.Pairwise.cons (fun e he => ?_)
          (List.pairwise_append.2 ⟨hinner, houter, fun e he f hf => ?_⟩)
        · rcases List.mem_append.1 he with he | he
          · exact Position.lt_of_lt_of_le hinside (hinnerBounds e he).1
          · exact Position.lt_of_lt_of_le hlt (houterBounds e he).1
        · exact Position.lt_of_lt_of_le (hinnerBounds e he).2 (houterBounds f hf).1
      · intro e he
        rcases List.mem_cons.1 he with rfl | he
        · exact ⟨hstart, Position.lt_of_lt_of_le hlt hbeside.le⟩
        · rcases List.mem_append.1 he with he | he
          · have hbounds := hinnerBounds e he
            exact ⟨Position.le_trans hstart (Position.le_trans (Position.le_of_lt hinside)
              hbounds.1), Position.lt_of_lt_of_le hbounds.2 hbeside.le⟩
          · have hbounds := houterBounds e he
            exact ⟨Position.le_trans hstart (Position.le_trans (Position.le_of_lt hlt) hbounds.1),
              hbounds.2⟩

/-- An element of a layout with a tag that is shown is in its place. -/
theorem Laid.wellPlaced {q : Position} {t : Tree Element} (hinside : t.value.span.start < q)
    (h : Laid q t.value.span.stop (map sketchOf t.children))
    (hshown : isShownTag t.value.tag = true) : WellPlaced t := by
  rw [isShownTag, Bool.and_eq_true, Bool.not_eq_true', Bool.not_eq_true', Name.isDotted,
    decide_eq_false_iff_not] at hshown
  have hchild : ∀ c ∈ t.children, t.value.span.start < c.value.span.start := fun c hc =>
    Position.lt_of_lt_of_le hinside (h.of_mem hc).1
  exact
    { start_lt_stop := Position.lt_of_lt_of_le hinside h.le
      start_lt_child := hchild
      encloses_child := fun c hc => ⟨Position.le_of_lt (hchild c hc), (h.of_mem hc).2.1⟩
      inOrder := h.inOrder
      not_dotted := hshown.2
      not_definition := hshown.1 }

/-- Reading never fails on the bounds of an element: it fails at a mismatch alone, and only if it is
strict. The forest it makes is well nested. Its roots are in order, every element in it is in its
place, and the starts increase in depth-first pre-order. -/
theorem read_wellNested (strict : Bool) (text : String) :
    match (read strict text).outcome with
    | .ok forest =>
      InOrder forest ∧ (∀ t ∈ subtrees forest, WellPlaced t) ∧
        (values forest).Pairwise (fun e f => e.span.start < f.span.start)
    | .error failure => strict = true ∧ ∃ m, failure = .mismatch m := by
  obtain ⟨forest, hforest⟩ := exists_map_sketchOf_eq_prune text
  have hlaid : Laid .origin (endOf text) (map sketchOf forest) := by
    rw [hforest]
    exact (laid_fullTreeOf text).prune
  have hplaced : ∀ t ∈ subtrees forest, WellPlaced t := by
    intro t ht
    obtain ⟨q, hinside, hcontent⟩ := hlaid.of_mem_subtrees ht
    have hmem : (⟨sketchOf t.value, map sketchOf t.children⟩ : Tree Sketch) ∈
        subtrees (prune (fullTreeOf text)) := by
      rw [← hforest, subtrees_map]
      exact List.mem_map_of_mem ht
    have hshown := isShownTag_of_mem_subtrees_prune hmem
    exact hcontent.wellPlaced hinside hshown
  have hok := outcome_read_false hforest
  cases strict with
  | false =>
    rw [hok]
    exact ⟨hlaid.inOrder, hplaced, hlaid.pairwise_start.1⟩
  | true =>
    rcases read_true_cases text with ⟨hsame, _⟩ | ⟨before, m, after, _, _, hstrict⟩
    · rw [hsame, hok]
      exact ⟨hlaid.inOrder, hplaced, hlaid.pairwise_start.1⟩
    · rw [hstrict]
      exact ⟨rfl, m, rfl⟩

end MarkupOutline.Markup
