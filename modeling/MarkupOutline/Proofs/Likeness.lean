import MarkupOutline.Proofs.Aspects
import MarkupOutline.Proofs.Concatenation

/-!
# Tokens that are alike

Texts whose tokens are alike one by one under an aspect are read as forests that are equal under it
(`map_sketch_prune_fullTreeOf`), and if the aspect keeps the lines they make the same first mismatch
(`firstMismatch?_alike`).
-/

namespace MarkupOutline.Markup

open Forest Nest

/-- The same token at two places is alike if neither place is the one in view. -/
theorem Token.Alike.of_elsewhere {p : Position} {token token' : Token}
    (h : Token.Elsewhere (fun q q' => p < q ∧ p < q') token token') :
    Token.Alike (.blur p) token token' := by
  have hne : ∀ q, p < q → q ≠ p := by
    rintro q hlt rfl
    exact Position.not_lt.2 (Position.le_refl q) hlt
  cases h with
  | aside ended => exact .aside ended
  | endTag name h => exact .endTag name rfl
  | startTag hname hstart _ hbody hending =>
    refine .startTag ?_ (by rw [hending])
    rw [StartTag.sketch, StartTag.sketch, StartTag.attributeText, StartTag.attributeText, hname,
      hbody, hending]
    simp only [Aspect.blur, Sketch.blur, Sketch.ofTag, hne _ hstart.1, hne _ hstart.2, if_false]
  | stray => exact .stray

namespace Aspect

variable (a : Aspect)

/-! ## Nests -/

/-- What a nest looks like. -/
def nest (n : Nest Sketch) : Nest Sketch :=
  n.behind [] a.sketch

/-- The open values of a nest look like those of what it looks like. -/
theorem map_around_nest (n : Nest Sketch) :
    (a.nest n).around.map (·.2.tag) = n.around.map (·.2.tag) := by
  obtain ⟨inside, around⟩ := n
  induction around generalizing inside with
  | nil => rfl
  | cons o rest ih =>
    obtain ⟨front, s⟩ := o
    show (a.sketch s).tag :: (a.nest ⟨front, rest⟩).around.map (·.2.tag) = _
    rw [ih, a.tag_sketch]
    rfl

variable {a} {n n' : Nest Sketch}

/-- Tokens that are alike do the same to nests that look the same. -/
theorem nest_fullStep {token token' : Token} (hn : a.nest n = a.nest n')
    (h : Token.Alike a token token') :
    a.nest (fullStep n token) = a.nest (fullStep n' token') := by
  rw [nest, nest] at hn ⊢
  cases h with
  | @startTag tag tag' hsketch hclosed =>
    rw [fullStep, fullStep]
    by_cases hending : tag.ending = .closed
    · rw [if_pos hending, if_pos (hclosed.1 hending), behind_add, behind_add, hn]
      simp only [map_cons, map_nil, hsketch]
    · rw [if_neg hending, if_neg (mt hclosed.2 hending), behind_enter, behind_enter, hn, hsketch]
  | @endTag name q q' hplace =>
    rw [fullStep, fullStep, behind_leave [] (a.sketch_endAt q),
      behind_leave [] (a.sketch_endAt q'), hn, hplace]
  | aside ended => exact hn
  | stray => exact hn

theorem nest_fullNest {tokens tokens' : List Token} (hn : a.nest n = a.nest n')
    (h : List.Forall₂ (Token.Alike a) tokens tokens') :
    a.nest (fullNest n tokens) = a.nest (fullNest n' tokens') := by
  induction h generalizing n n' with
  | nil => exact hn
  | cons hfirst _ ih => exact ih (nest_fullStep hn hfirst)

/-! ## Mismatches -/

/-- Tokens that are alike make the same mismatch, if the aspect keeps the lines. -/
theorem mismatch?_alike (hline : ∀ q q', a.place q = a.place q' → q.line = q'.line)
    {token token' : Token} (hn : a.nest n = a.nest n') (h : Token.Alike a token token')
    (notices notices' : List Notice) :
    (Assembly.ofNest n notices).mismatch? token =
      (Assembly.ofNest n' notices').mismatch? token' := by
  cases h with
  | startTag hsketch hclosed => rfl
  | aside ended => rfl
  | stray => rfl
  | @endTag name q q' hplace =>
    have htags : n.around.map (·.2.tag) = n'.around.map (·.2.tag) := by
      rw [← a.map_around_nest n, hn, a.map_around_nest]
    obtain ⟨inside, _ | ⟨⟨front, s⟩, rest⟩⟩ := n
    · obtain ⟨inside', _ | ⟨o', rest'⟩⟩ := n'
      · rfl
      · exact absurd htags (by simp)
    · obtain ⟨inside', _ | ⟨⟨front', s'⟩, rest'⟩⟩ := n'
      · exact absurd htags (by simp)
      · have htag : s.tag = s'.tag := (List.cons.inj htags).1
        show (if s.tag = name then none else some (⟨s.tag, name, q.line⟩ : Mismatch)) =
          if s'.tag = name then none else some ⟨s'.tag, name, q'.line⟩
        rw [htag, hline q q' hplace]

theorem firstMismatch?_alike (hline : ∀ q q', a.place q = a.place q' → q.line = q'.line)
    {tokens tokens' : List Token} (hn : a.nest n = a.nest n')
    (h : List.Forall₂ (Token.Alike a) tokens tokens') (notices notices' : List Notice) :
    firstMismatch? (.ofNest n notices) tokens = firstMismatch? (.ofNest n' notices') tokens' := by
  induction h generalizing n n' notices notices' with
  | nil => rfl
  | cons hfirst _ ih =>
    rw [firstMismatch?, firstMismatch?, mismatch?_alike hline hn hfirst notices notices',
      step_ofNest, step_ofNest]
    split
    · rfl
    · exact ih (nest_fullStep hn hfirst) _ _

/-! ## Forests -/

/-- The whole forest looks like the whole of what the nest looks like. -/
theorem map_sketch_whole (n : Nest Sketch) (stop : Position) :
    map a.sketch (n.whole (Sketch.endAt stop)) = (a.nest n).whole (Sketch.endAt (a.place stop)) := by
  rw [nest, whole_behind [] (a.sketch_endAt stop), List.nil_append]

/-- Texts of tokens that are alike have pruned full trees that look the same. -/
theorem map_sketch_prune_fullTreeOf {text text' : String}
    (hstop : a.place (endOf text) = a.place (endOf text'))
    (h : List.Forall₂ (Token.Alike a) (tokensOf text) (tokensOf text')) :
    map a.sketch (prune (fullTreeOf text)) = map a.sketch (prune (fullTreeOf text')) := by
  rw [← prune_map a.tag_sketch, ← prune_map a.tag_sketch, fullTreeOf, fullTreeOf, fullTree,
    fullTree, map_sketch_whole, map_sketch_whole, nest_fullNest rfl h, hstop]

end Aspect

end MarkupOutline.Markup
