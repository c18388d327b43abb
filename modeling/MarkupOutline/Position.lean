/-!
# Positions and spans

A `Position` is a zero-based line and column, ordered first by line and then by column.
A `Span` is a half-open range of positions whose end does not precede its start.
-/

namespace MarkupOutline

/-- A zero-based place in a text; columns count characters. -/
structure Position where
  line : Int
  column : Int
deriving DecidableEq, Repr, Inhabited

namespace Position

/-! ## Order -/

instance : LT Position where
  lt p q := p.line < q.line ∨ p.line = q.line ∧ p.column < q.column

instance : LE Position where
  le p q := p.line < q.line ∨ p.line = q.line ∧ p.column ≤ q.column

instance (p q : Position) : Decidable (p < q) :=
  inferInstanceAs (Decidable (p.line < q.line ∨ p.line = q.line ∧ p.column < q.column))

instance (p q : Position) : Decidable (p ≤ q) :=
  inferInstanceAs (Decidable (p.line < q.line ∨ p.line = q.line ∧ p.column ≤ q.column))

theorem lt_def {p q : Position} :
    p < q ↔ p.line < q.line ∨ p.line = q.line ∧ p.column < q.column := Iff.rfl

theorem le_def {p q : Position} :
    p ≤ q ↔ p.line < q.line ∨ p.line = q.line ∧ p.column ≤ q.column := Iff.rfl

protected theorem le_refl (p : Position) : p ≤ p := by
  rw [le_def]
  omega

protected theorem le_trans {p q r : Position} (hpq : p ≤ q) (hqr : q ≤ r) : p ≤ r := by
  rw [le_def] at *
  omega

protected theorem le_antisymm {p q : Position} (hpq : p ≤ q) (hqp : q ≤ p) : p = q := by
  obtain ⟨pl, pc⟩ := p
  obtain ⟨ql, qc⟩ := q
  simp only [le_def, Position.mk.injEq] at *
  omega

protected theorem le_total (p q : Position) : p ≤ q ∨ q ≤ p := by
  rw [le_def, le_def]
  omega

protected theorem not_lt {p q : Position} : ¬ q < p ↔ p ≤ q := by
  rw [le_def, lt_def]
  omega

protected theorem le_of_lt {p q : Position} (h : p < q) : p ≤ q := by
  rw [lt_def] at h
  rw [le_def]
  omega

protected theorem lt_of_lt_of_le {p q r : Position} (hpq : p < q) (hqr : q ≤ r) : p < r := by
  rw [lt_def, le_def] at *
  omega

protected theorem lt_of_le_of_lt {p q r : Position} (hpq : p ≤ q) (hqr : q < r) : p < r := by
  rw [lt_def, le_def] at *
  omega

/-! ## Reading a text -/

/-- The start of every text. -/
def origin : Position := ⟨0, 0⟩

/-- The place just after the character `c` read at `p`. -/
def after (p : Position) (c : Char) : Position :=
  if c = '\n' then ⟨p.line + 1, 0⟩ else ⟨p.line, p.column + 1⟩

/-- The place just after the characters `cs` read from `p`. -/
def afterAll (p : Position) (cs : List Char) : Position :=
  cs.foldl after p

theorem afterAll_append (p : Position) (cs ds : List Char) :
    p.afterAll (cs ++ ds) = (p.afterAll cs).afterAll ds :=
  List.foldl_append

theorem lt_after (p : Position) (c : Char) : p < p.after c := by
  unfold after
  split
  · exact Or.inl (Int.lt_succ p.line)
  · exact Or.inr ⟨rfl, Int.lt_succ p.column⟩

/-- Reading on never goes back. -/
theorem le_afterAll (p : Position) (cs : List Char) : p ≤ p.afterAll cs := by
  induction cs generalizing p with
  | nil => exact Position.le_refl p
  | cons c cs ih => exact Position.le_trans (Position.le_of_lt (lt_after p c)) (ih (p.after c))

/-- `n` columns to the right on the same line. -/
def right (p : Position) (n : Nat) : Position :=
  ⟨p.line, p.column + n⟩

theorem le_right (p : Position) (n : Nat) : p ≤ p.right n := by
  rw [le_def]
  exact Or.inr ⟨rfl, Int.le_add_of_nonneg_right (Int.natCast_nonneg n)⟩

/-- A position as a pair in round brackets. -/
def text (p : Position) : String :=
  "(" ++ toString p.line ++ ", " ++ toString p.column ++ ")"

end Position

/-- A half-open range: `start` belongs to it, `stop` does not. -/
structure Span where
  start : Position
  stop : Position
  start_le_stop : start ≤ stop
deriving DecidableEq, Repr

namespace Span

/-- Two bounds that make no span, because the second precedes the first. -/
structure Reversed where
  start : Position
  stop : Position
deriving DecidableEq, Repr

/-- The wording of a refused pair of bounds. -/
def Reversed.message (r : Reversed) : String :=
  "Span end " ++ r.stop.text ++ " precedes start " ++ r.start.text

/-- The span between two bounds, refused exactly when they are reversed. -/
def ofBounds (start stop : Position) : Except Reversed Span :=
  if h : start ≤ stop then .ok ⟨start, stop, h⟩ else .error ⟨start, stop⟩

/-- The `n` columns from `p` on. -/
def columns (p : Position) (n : Nat) : Span :=
  ⟨p, p.right n, Position.le_right p n⟩

/-- A position lies in a span from its start on and before its end. -/
instance : Membership Position Span where
  mem s p := s.start ≤ p ∧ p < s.stop

instance (p : Position) (s : Span) : Decidable (p ∈ s) :=
  inferInstanceAs (Decidable (s.start ≤ p ∧ p < s.stop))

theorem mem_def {p : Position} {s : Span} : p ∈ s ↔ s.start ≤ p ∧ p < s.stop := Iff.rfl

/-- One span encloses another when both bounds of the other lie between its own. -/
def Encloses (s t : Span) : Prop :=
  s.start ≤ t.start ∧ t.stop ≤ s.stop

/-- What lies in a span lies in every span that encloses it. -/
theorem Encloses.mem {s t : Span} {p : Position} (h : s.Encloses t) (hp : p ∈ t) : p ∈ s :=
  ⟨Position.le_trans h.1 hp.1, Position.lt_of_lt_of_le hp.2 h.2⟩

instance (s t : Span) : Decidable (s.Encloses t) :=
  inferInstanceAs (Decidable (s.start ≤ t.start ∧ t.stop ≤ s.stop))

end Span

end MarkupOutline
