import MarkupOutline.Proofs.FullTree
import MarkupOutline.Proofs.Travel

/-!
# Trees laid out in a text

`Laid lo hi ts` says that the trees of a forest stand one behind the other between the places `lo`
and `hi`, and that this goes on inside each of them, behind its start tag. The nest of all start
tags keeps to it while a text is read (`Grown`), so the full tree of every text is laid out, and
pruning it does no harm.
-/

namespace MarkupOutline.Markup

open Forest Nest

/-! ## Laid out forests -/

/-- The trees stand one behind the other between `lo` and `hi`. What stands inside a tree begins
behind its start, and ends before it ends. -/
inductive Laid : Position → Position → Forest Sketch → Prop
  | nil {lo hi : Position} (h : lo ≤ hi) : Laid lo hi []
  | cons {lo q hi : Position} {t : Tree Sketch} {ts : Forest Sketch}
      (hstart : lo ≤ t.value.start) (hinside : t.value.start < q)
      (below : Laid q t.value.stop t.children) (beside : Laid t.value.stop hi ts) :
      Laid lo hi (t :: ts)

namespace Laid

variable {lo mid hi : Position} {ts : Forest Sketch}

theorem le (h : Laid lo hi ts) : lo ≤ hi := by
  induction h with
  | nil h => exact h
  | cons hstart hinside _ _ ihbelow ihbeside =>
    have hlt := Position.lt_of_lt_of_le hinside ihbelow
    exact Position.le_trans hstart (Position.le_trans (Position.le_of_lt hlt) ihbeside)

theorem lower {lo' : Position} (h : Laid lo hi ts) (hlo : lo' ≤ lo) : Laid lo' hi ts := by
  cases h with
  | nil h => exact .nil (Position.le_trans hlo h)
  | cons hstart hinside below beside =>
    exact .cons (Position.le_trans hlo hstart) hinside below beside

theorem upper {hi' : Position} (h : Laid lo hi ts) (hhi : hi ≤ hi') : Laid lo hi' ts := by
  induction h with
  | nil h => exact .nil (Position.le_trans h hhi)
  | cons hstart hinside below _ _ ihbeside => exact .cons hstart hinside below (ihbeside hhi)

/-- Behind trees laid out up to a place there is room for more. -/
theorem append {ss : Forest Sketch} (h : Laid lo mid ss) (h' : Laid mid hi ts) :
    Laid lo hi (ss ++ ts) := by
  induction h with
  | nil h => exact h'.lower h
  | cons hstart hinside below _ _ ihbeside => exact .cons hstart hinside below (ihbeside h')

/-- A single tree whose content is laid out from behind its start tag to its end. -/
theorem single {s : Sketch} {q : Position} (hstart : s.start < q) (h : Laid q s.stop ts) :
    Laid s.start s.stop [⟨s, ts⟩] :=
  .cons (Position.le_refl _) hstart h (.nil (Position.le_refl _))

/-- What is left after pruning is still laid out. -/
theorem prune (h : Laid lo hi ts) : Laid lo hi (prune ts) := by
  induction h with
  | nil h =>
    rw [prune_nil]
    exact .nil h
  | @cons lo q hi t ts hstart hinside below beside ihbelow ihbeside =>
    have hle : lo ≤ q := Position.le_trans hstart (Position.le_of_lt hinside)
    rw [prune_cons]
    split
    · exact ihbeside.lower (Position.le_trans hle below.le)
    · split
      -- the content that takes the place of its element stands where the element stood
      · exact (ihbelow.lower hle).append ihbeside
      · exact .cons hstart hinside ihbelow ihbeside

end Laid

/-! ## The nest while a text is read -/

/-- The nest is laid out up to `p`: what is finished inside an open element stands behind its start
tag, and what is finished in front of it ends before it starts. -/
def GrownOf (p : Position) (inside : Forest Sketch) : List (Forest Sketch × Sketch) → Prop
  | [] => Laid .origin p inside
  | (front, s) :: rest => s.start < s.stop ∧ Laid s.stop p inside ∧ GrownOf s.start front rest

/-- The nest is laid out up to `p`. -/
def Grown (p : Position) (n : Nest Sketch) : Prop :=
  GrownOf p n.inside n.around

theorem GrownOf.append {p q : Position} {inside ts : Forest Sketch}
    {around : List (Forest Sketch × Sketch)} (h : GrownOf p inside around) (h' : Laid p q ts) :
    GrownOf q (inside ++ ts) around := by
  cases around with
  | nil => exact Laid.append h h'
  | cons o rest => exact ⟨h.1, h.2.1.append h', h.2.2⟩

theorem Grown.mono {p q : Position} {n : Nest Sketch} (h : Grown p n) (hpq : p ≤ q) :
    Grown q n := by
  have hnil := GrownOf.append h (.nil hpq)
  rw [List.append_nil] at hnil
  exact hnil

/-- An element closed at `q` stands behind what is in front of it. -/
theorem GrownOf.close {p q : Position} {inside front : Forest Sketch} {s : Sketch}
    {rest : List (Forest Sketch × Sketch)} (h : GrownOf p inside ((front, s) :: rest))
    (hpq : p ≤ q) : GrownOf q (front ++ [⟨s.endAt q, inside⟩]) rest := by
  obtain ⟨hlt, hinside, hfront⟩ := h
  exact hfront.append (Laid.single (s := s.endAt q) hlt (hinside.upper hpq))

/-- A token that comes next leaves the nest laid out up to its own place. -/
theorem Grown.run {p q : Position} {tokens : List Token} (h : Token.Ordered p tokens q)
    {n : Nest Sketch} (hn : Grown p n) : Grown q (fullNest n tokens) := by
  induction h generalizing n with
  | nil h => exact hn.mono h
  | @startTag p q tag tokens hstart hstop _ ih =>
    refine ih ?_
    rw [fullStep]
    split
    · have hleaf : Laid p tag.stop [⟨tag.sketch, []⟩] :=
        (Laid.single (s := tag.sketch) hstop (.nil (Position.le_refl _))).lower hstart
      exact GrownOf.append hn hleaf
    · exact ⟨hstop, .nil (Position.le_refl _), hn.mono hstart⟩
  | @endTag p q stop name tokens hstop _ ih =>
    refine ih ?_
    obtain ⟨inside, _ | ⟨⟨front, s⟩, rest⟩⟩ := n
    · exact hn.mono hstop
    · exact GrownOf.close hn hstop
  | aside _ ih => exact ih hn
  | stray _ ih => exact ih hn

/-- Closing all that is open at `q` leaves a forest laid out up to `q`. -/
theorem GrownOf.laid_wholeOf {p q : Position} {inside : Forest Sketch}
    {around : List (Forest Sketch × Sketch)} (h : GrownOf p inside around) (hpq : p ≤ q) :
    Laid .origin q (wholeOf (Sketch.endAt q) inside around) := by
  induction around generalizing p inside with
  | nil => exact Laid.upper h hpq
  | cons o rest ih => exact ih (h.close hpq) (Position.le_refl q)

/-- The full tree of every text is laid out between its start and its end. -/
theorem laid_fullTreeOf (text : String) :
    Laid .origin (endOf text) (fullTreeOf text) := by
  have hordered := Token.ordered_readAll (Cursor.ofText text.toList)
  have hempty : Grown .origin .empty := .nil (Position.le_refl _)
  exact GrownOf.laid_wholeOf (hempty.run hordered) (Position.le_refl _)

end MarkupOutline.Markup
