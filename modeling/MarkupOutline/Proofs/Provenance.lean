import MarkupOutline.Proofs.Pruned

/-!
# Where elements come from

Every element read from a text is the sketch of one of its start tags; its end has been moved by
nothing but end tags and the end of the text. So what holds of all start tags, and goes on to hold
when an end is moved there, holds of all elements (`of_mem_values_read`).
-/

namespace MarkupOutline

open Forest

namespace Nest

universe u

variable {α : Type u} {P : α → Prop} {n : Nest α}

/-- All values in a nest, open ones included, have a property. -/
structure All (P : α → Prop) (n : Nest α) : Prop where
  inside : ∀ a ∈ values n.inside, P a
  around : ∀ o ∈ n.around, P o.2 ∧ ∀ a ∈ values o.1, P a

theorem all_empty : All P (empty : Nest α) :=
  ⟨by simp [empty], by simp [empty]⟩

theorem All.add {ts : Forest α} (h : n.All P) (hts : ∀ a ∈ values ts, P a) : (n.add ts).All P where
  inside a ha := by
    rw [Nest.add, values_append, List.mem_append] at ha
    exact ha.elim (h.inside a) (hts a)
  around := h.around

theorem All.enter {a : α} (h : n.All P) (ha : P a) : (n.enter a).All P where
  inside b hb := by simp [Nest.enter] at hb
  around := by
    rw [Nest.enter, List.forall_mem_cons]
    exact ⟨⟨ha, h.inside⟩, h.around⟩

theorem All.leave {f : α → α} (h : n.All P) (hf : ∀ a, P a → P (f a)) : (n.leave f).All P := by
  obtain ⟨inside, _ | ⟨⟨front, a⟩, rest⟩⟩ := n
  · exact h
  · obtain ⟨⟨ha, hfront⟩, hrest⟩ := List.forall_mem_cons.1 h.around
    refine All.add (n := ⟨front, rest⟩) ⟨hfront, hrest⟩ ?_
    rw [values_cons, values_nil, List.append_nil, List.forall_mem_cons]
    exact ⟨hf a ha, h.inside⟩

/-- Closing all that is open leaves a forest of values that have the property. -/
theorem All.whole {f : α → α} (h : n.All P) (hf : ∀ a, P a → P (f a)) :
    ∀ a ∈ values (n.whole f), P a := by
  obtain ⟨inside, around⟩ := n
  induction around generalizing inside with
  | nil => exact h.inside
  | cons o rest ih => exact ih _ (h.leave hf)

end Nest

namespace Markup

variable {P : Sketch → Prop}

/-- A token keeps a property of all sketches if a start tag has it and an end tag leaves it be. -/
theorem all_fullStep {n : Nest Sketch} {token : Token} (h : n.All P)
    (hstart : ∀ tag, token = .startTag tag → P tag.sketch)
    (hend : ∀ name p, token = .endTag name p → ∀ s, P s → P (s.endAt p)) :
    (fullStep n token).All P := by
  cases token with
  | startTag tag =>
    have htag := hstart tag rfl
    rw [fullStep]
    split
    · exact h.add (by simpa using htag)
    · exact h.enter htag
  | endTag name p => exact h.leave (hend name p rfl)
  | aside ended => exact h
  | stray => exact h

theorem all_fullNest {n : Nest Sketch} {tokens : List Token} (h : n.All P)
    (hstart : ∀ tag, .startTag tag ∈ tokens → P tag.sketch)
    (hend : ∀ name p, .endTag name p ∈ tokens → ∀ s, P s → P (s.endAt p)) :
    (fullNest n tokens).All P := by
  induction tokens generalizing n with
  | nil => exact h
  | cons token tokens ih =>
    have hstep : (fullStep n token).All P := by
      refine all_fullStep h (fun tag htag => hstart tag ?_) (fun name p htag => hend name p ?_)
      · exact htag ▸ List.mem_cons_self
      · exact htag ▸ List.mem_cons_self
    exact ih hstep (fun tag htag => hstart tag (List.mem_cons_of_mem _ htag))
      fun name p htag => hend name p (List.mem_cons_of_mem _ htag)

/-- Pruning brings no values in. -/
theorem mem_values_of_mem_prune {ts : Forest Sketch} {s : Sketch} (h : s ∈ values (prune ts)) :
    s ∈ values ts := by
  induction ts using Forest.induct with
  | nil => simp at h
  | cons t ts below beside =>
    rw [prune_cons, values_append, List.mem_append] at h
    rw [values_cons, List.mem_cons, List.mem_append]
    rcases h with h | h
    · split at h
      · simp at h
      · split at h
        · exact .inr (.inl (below h))
        · rw [values_cons, values_nil, List.append_nil, List.mem_cons] at h
          exact h.imp id fun h => .inl (below h)
    · exact .inr (.inr (beside h))

/-- What holds of the sketch of every start tag of a text, and goes on to hold when its end is moved
to that of an end tag or to the end of the text, holds of every element that is read. -/
theorem of_mem_values_read {text : String} {forest : Forest Element}
    (hforest : map sketchOf forest = prune (fullTreeOf text))
    (hstart : ∀ tag, .startTag tag ∈ tokensOf text → P tag.sketch)
    (hend : ∀ name p, .endTag name p ∈ tokensOf text → ∀ s, P s → P (s.endAt p))
    (hstop : ∀ s, P s → P (s.endAt (endOf text))) {e : Element} (he : e ∈ values forest) :
    P (sketchOf e) := by
  have hmem : sketchOf e ∈ values (prune (fullTreeOf text)) := by
    rw [← hforest, values_map]
    exact List.mem_map_of_mem he
  have hall := all_fullNest Nest.all_empty hstart hend
  exact hall.whole hstop _ (mem_values_of_mem_prune hmem)

end Markup

end MarkupOutline
