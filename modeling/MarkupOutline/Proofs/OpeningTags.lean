import MarkupOutline.Proofs.InnermostElement
import MarkupOutline.Proofs.SourceFidelity
import MarkupOutline.Proofs.Continuation

/-!
# From elements to places and back

Every place in the start tag of an element leads back to the element (`elementAt_openingTag`). Start
tags stand apart from each other and from the ends of all other tags (`Ordered.apart`), so an
element covers all of its own start tag, and no other element begins inside it.
-/

namespace MarkupOutline.Markup

open Forest Lookup

/-! ## Tags stand apart -/

namespace Token

variable {p q r : Position} {tokens : List Token} {tag tag' : StartTag} {token : Token}

theorem Ordered.le (h : Ordered p tokens q) : p ≤ q := by
  induction h with
  | nil h => exact h
  | startTag hstart hstop _ ih =>
    exact Position.le_trans hstart (Position.le_trans (Position.le_of_lt hstop) ih)
  | endTag hstop _ ih => exact Position.le_trans hstop ih
  | aside _ ih => exact ih
  | stray _ ih => exact ih

/-- No token ends behind the last place. -/
theorem Ordered.stop_le (h : Ordered p tokens q) (hmem : token ∈ tokens)
    (hstop : token.stop? = some r) : r ≤ q := by
  induction h with
  | nil => simp at hmem
  | startTag _ _ rest ih =>
    rcases List.mem_cons.1 hmem with rfl | hmem
    · exact Option.some.inj hstop ▸ rest.le
    · exact ih hmem
  | endTag _ rest ih =>
    rcases List.mem_cons.1 hmem with rfl | hmem
    · exact Option.some.inj hstop ▸ rest.le
    · exact ih hmem
  | aside _ ih =>
    rcases List.mem_cons.1 hmem with rfl | hmem
    · simp [stop?] at hstop
    · exact ih hmem
  | stray _ ih =>
    rcases List.mem_cons.1 hmem with rfl | hmem
    · simp [stop?] at hstop
    · exact ih hmem

/-- A start tag parts the tokens into those in front of it and those behind it. -/
theorem Ordered.parted {before after : List Token}
    (h : Ordered p (before ++ .startTag tag :: after) q) :
    Ordered p before tag.start ∧ tag.start < tag.stop ∧ Ordered tag.stop after q := by
  induction before generalizing p with
  | nil =>
    cases h with
    | startTag hstart hstop rest => exact ⟨.nil hstart, hstop, rest⟩
  | cons token before ih =>
    cases h with
    | startTag hstart hstop rest => exact ⟨.startTag hstart hstop (ih rest).1, (ih rest).2⟩
    | endTag hstop rest => exact ⟨.endTag hstop (ih rest).1, (ih rest).2⟩
    | aside rest => exact ⟨.aside (ih rest).1, (ih rest).2⟩
    | stray rest => exact ⟨.stray (ih rest).1, (ih rest).2⟩

theorem Ordered.start_lt_stop (h : Ordered p tokens q) (htag : .startTag tag ∈ tokens) :
    tag.start < tag.stop := by
  obtain ⟨before, after, rfl⟩ := List.append_of_mem htag
  exact h.parted.2.1

/-- No tag ends inside a start tag. -/
theorem Ordered.stop_apart (h : Ordered p tokens q) (htag : .startTag tag ∈ tokens)
    (hmem : token ∈ tokens) (hstop : token.stop? = some r) : r ≤ tag.start ∨ tag.stop ≤ r := by
  obtain ⟨before, after, rfl⟩ := List.append_of_mem htag
  obtain ⟨hbefore, -, hafter⟩ := h.parted
  rw [List.mem_append, List.mem_cons] at hmem
  rcases hmem with hmem | rfl | hmem
  · exact .inl (hbefore.stop_le hmem hstop)
  · exact .inr (Option.some.inj hstop ▸ Position.le_refl _)
  · exact .inr (hafter.le_of_stop? hmem hstop)

/-- Start tags stand apart. -/
theorem Ordered.apart (h : Ordered p tokens q) (htag : .startTag tag ∈ tokens)
    (htag' : .startTag tag' ∈ tokens) :
    tag = tag' ∨ tag.stop ≤ tag'.start ∨ tag'.stop ≤ tag.start := by
  obtain ⟨before, after, rfl⟩ := List.append_of_mem htag
  obtain ⟨hbefore, -, hafter⟩ := h.parted
  rw [List.mem_append, List.mem_cons] at htag'
  rcases htag' with hmem | heq | hmem
  · exact .inr (.inr (hbefore.stop_le hmem rfl))
  · exact .inl (Token.startTag.inj heq).symm
  · obtain ⟨front, behind, rfl⟩ := List.append_of_mem hmem
    exact .inr (.inl hafter.parted.1.le)

end Token

/-! ## Start tags of a text -/

variable {text : String} {tag : StartTag}

/-- A start tag reaches beyond its name. -/
theorem right_name_le_stop (h : .startTag tag ∈ tokensOf text) :
    tag.start.right (1 + tag.name.length) ≤ tag.stop := by
  obtain ⟨d, _, rest, _, hmark, hread⟩ := Token.exists_of_mem_readAll h
  have hreads : Token.Reads d (.startTag tag, (Token.read d).2) := hread ▸ Token.reads_read d
  generalize (Token.read d).2 = next at hreads
  cases hreads with
  | @startTag name body hname hbody =>
    have hfeed : '\n' ∉ '<' :: name := by
      rw [List.mem_cons, not_or]
      exact ⟨by decide, fun hmem => absurd (Name.isPart_of_mem_read? hname _ hmem) (by decide)⟩
    obtain ⟨tail, htail⟩ := Name.prefix_of_read? hname
    have hplace : ((d.advance 1).advance name.length).position =
        d.position.right (1 + name.length) := by
      have hname' : (d.advance 1).rest.take name.length = name := by
        rw [← htail, List.take_left]
      have hmark' : d.rest.take 1 = ['<'] := by
        rw [hmark]
        rfl
      show (d.position.afterAll (d.rest.take 1)).afterAll ((d.advance 1).rest.take name.length) = _
      rw [hname', hmark', ← Position.afterAll_append, List.singleton_append,
        Position.afterAll_eq_right hfeed, List.length_cons, Nat.add_comm]
    obtain ⟨cs, _, hleads, _⟩ := Cursor.Leads.readBodyFrom none []
      ((d.advance 1).advance name.length).position ((d.advance 1).advance name.length).rest
    have hle := hleads.position_le
    rw [← readBody, ← hbody] at hle
    rw [hplace] at hle
    show d.position.right (1 + (String.ofList name).length) ≤ body.next.position
    rw [String.length_ofList]
    exact hle

/-! ## Elements and their start tags -/

variable {forest : Forest Element} {e : Element}

/-- Every element begins with a start tag of the same name, and ends with a tag or with the text. -/
theorem exists_tag_of_mem_values (hforest : map sketchOf forest = prune (fullTreeOf text))
    (he : e ∈ values forest) :
    (∃ tag, .startTag tag ∈ tokensOf text ∧ tag.start = e.span.start ∧ tag.name = e.tag) ∧
      (e.span.stop = endOf text ∨ ∃ token ∈ tokensOf text, token.stop? = some e.span.stop) :=
  of_mem_values_read
    (P := fun s => (∃ tag, .startTag tag ∈ tokensOf text ∧ tag.start = s.start ∧ tag.name = s.tag) ∧
      (s.stop = endOf text ∨ ∃ token ∈ tokensOf text, token.stop? = some s.stop))
    hforest (fun tag htag => ⟨⟨tag, htag, rfl, rfl⟩, .inr ⟨_, htag, rfl⟩⟩)
    (fun _ _ htag _ hs => ⟨hs.1, .inr ⟨_, htag, rfl⟩⟩) (fun _ hs => ⟨hs.1, .inl rfl⟩) he

/-- An element covers all of its start tag. -/
theorem stop_le_of_start_eq (hforest : map sketchOf forest = prune (fullTreeOf text))
    (he : e ∈ values forest) (htag : .startTag tag ∈ tokensOf text)
    (hstart : tag.start = e.span.start) (hlt : e.span.start < e.span.stop) :
    tag.stop ≤ e.span.stop := by
  have hordered := Token.ordered_readAll (Cursor.ofText text.toList)
  rcases (exists_tag_of_mem_values hforest he).2 with hend | ⟨token, hmem, hstop⟩
  · rw [hend]
    exact hordered.stop_le htag rfl
  · rcases hordered.stop_apart htag hmem hstop with hle | hle
    · rw [hstart] at hle
      exact absurd hlt (Position.not_lt.2 hle)
    · exact hle

/-- No element begins inside a start tag. -/
theorem stop_le_start_of_lt (hforest : map sketchOf forest = prune (fullTreeOf text))
    (he : e ∈ values forest) (htag : .startTag tag ∈ tokensOf text)
    (hlt : tag.start < e.span.start) : tag.stop ≤ e.span.start := by
  have hordered := Token.ordered_readAll (Cursor.ofText text.toList)
  obtain ⟨tag', htag', hstart', -⟩ := (exists_tag_of_mem_values hforest he).1
  rw [← hstart'] at hlt ⊢
  rcases hordered.apart htag htag' with rfl | hle | hle
  · exact absurd hlt (Position.not_lt.2 (Position.le_refl _))
  · exact hle
  · have hlt' := Position.lt_of_lt_of_le (hordered.start_lt_stop htag') hle
    exact absurd hlt (Position.not_lt.2 (Position.le_of_lt hlt'))

/-! ## Looking up -/

/-- A place in the start tag of an element leads to the element. -/
theorem elementAt_of_lt_stop (hforest : map sketchOf forest = prune (fullTreeOf text))
    {t : Tree Element} (ht : t ∈ subtrees forest) (htag : .startTag tag ∈ tokensOf text)
    (hstart : tag.start = t.value.span.start) {p : Position} (hle : t.value.span.start ≤ p)
    (hlt : p < tag.stop) : elementAt p forest = some t := by
  have hlaid := laid_of_map_eq_prune hforest
  obtain ⟨q, hinside, hcontent⟩ := hlaid.of_mem_subtrees ht
  have hvalue : ∀ u ∈ subtrees forest, u.value ∈ values forest := by
    intro u hu
    rw [values_eq_map_subtrees]
    exact List.mem_map_of_mem hu
  have hcovers : p ∈ t.value.span := by
    have hstop := stop_le_of_start_eq hforest (hvalue t ht) htag hstart
      (Position.lt_of_lt_of_le hinside hcontent.le)
    exact ⟨hle, Position.lt_of_lt_of_le hlt hstop⟩
  obtain ⟨found, hlast, hfound⟩ :=
    hlaid.of_mem_covering (List.mem_filter.2 ⟨ht, decide_eq_true hcovers⟩)
  rw [hlaid.elementAt_eq, hlast]
  rcases hfound with rfl | hbelow
  · rfl
  · -- what stands inside the element begins behind its start tag
    obtain ⟨hmem, hmember⟩ := List.mem_filter.1 (List.mem_of_getLast? hlast)
    have hfirst : tag.start < found.value.span.start := by
      rw [hstart]
      exact Position.lt_of_lt_of_le hinside (hcontent.bounds_of_mem_subtrees hbelow).1
    have hbehind := stop_le_start_of_lt hforest (hvalue found hmem) htag hfirst
    have hp : found.value.span.start ≤ p := (of_decide_eq_true hmember).1
    have hlt' := Position.lt_of_lt_of_le hlt (Position.le_trans hbehind hp)
    exact absurd hlt' (Position.not_lt.2 (Position.le_refl p))

/-- Every element has a start tag of its name that starts where it starts. Looking up any place from
the start of the element up to the end of this tag, on whichever line that is, gives the element
itself with all that is inside it. So do looking up its start, and looking up any place that the
selection of its symbol covers. -/
theorem elementAt_openingTag (text : String) (lineNumbers : Bool) :
    ∃ forest, (read false text).outcome = .ok forest ∧
      ∀ t ∈ subtrees forest,
        (∃ tag, .startTag tag ∈ tokensOf text ∧ tag.start = t.value.span.start ∧
          tag.name = t.value.tag) ∧
        (∀ tag, .startTag tag ∈ tokensOf text → tag.start = t.value.span.start →
          ∀ p, t.value.span.start ≤ p → p < tag.stop → elementAt p forest = some t) ∧
        elementAt t.value.span.start forest = some t ∧
        ∀ p ∈ (Outline.Symbol.ofElement lineNumbers t.value).selection,
          elementAt p forest = some t := by
  obtain ⟨forest, hforest⟩ := exists_map_sketchOf_eq_prune text
  refine ⟨forest, outcome_read_false hforest, fun t ht => ?_⟩
  have he : t.value ∈ values forest := by
    rw [values_eq_map_subtrees]
    exact List.mem_map_of_mem ht
  obtain ⟨tag, htag, hstart, hname⟩ := (exists_tag_of_mem_values hforest he).1
  have hfinds := fun p => elementAt_of_lt_stop hforest ht htag hstart (p := p)
  have hlt := (Token.ordered_readAll (Cursor.ofText text.toList)).start_lt_stop htag
  refine ⟨⟨tag, htag, hstart, hname⟩, fun tag' htag' hstart' p =>
    elementAt_of_lt_stop hforest ht htag' hstart', ?_, fun p hp => ?_⟩
  · exact hfinds _ (Position.le_refl _) (hstart ▸ hlt)
  · obtain ⟨hfront, hbehind⟩ : t.value.span.start.right 1 ≤ p ∧
      p < (t.value.span.start.right 1).right t.value.tag.length := hp
    have hend := right_name_le_stop htag
    rw [hstart, hname, ← Position.right_right] at hend
    exact hfinds p (Position.le_trans (Position.le_right _ 1) hfront)
      (Position.lt_of_lt_of_le hbehind hend)

end MarkupOutline.Markup
