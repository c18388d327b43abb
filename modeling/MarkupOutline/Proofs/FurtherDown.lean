import MarkupOutline.Proofs.Continuation
import MarkupOutline.Proofs.Elsewhere

/-!
# Texts further down

A text may stand some lines further down than another of the same characters. All that is read of
it is the same, and stands as many lines further down (`readAll_down`).
-/

namespace MarkupOutline

/-! ## Places -/

namespace Position

variable (n : Nat) (p q : Position)

/-- The place `n` lines further down. -/
def down : Position :=
  ⟨p.line + n, p.column⟩

theorem down_le_down : p.down n ≤ q.down n ↔ p ≤ q := by
  simp only [le_def, down]
  omega

theorem after_down (c : Char) : (p.down n).after c = (p.after c).down n := by
  unfold after down
  split
  · have hline : p.line + n + 1 = p.line + 1 + n := by omega
    exact congrArg (fun line => Position.mk line 0) hline
  · rfl

theorem carried_down : Carried fun p q => q = p.down n := by
  rintro p q rfl c
  exact after_down n p c

theorem afterAll_down (cs : List Char) : (p.down n).afterAll cs = (p.afterAll cs).down n :=
  (carried_down n).afterAll rfl cs

end Position

/-- The span `n` lines further down. -/
def Span.down (n : Nat) (s : Span) : Span :=
  ⟨s.start.down n, s.stop.down n, (Position.down_le_down n _ _).2 s.start_le_stop⟩

namespace Markup

/-- The cursor on the same text `n` lines further down. -/
def Cursor.down (n : Nat) (c : Cursor) : Cursor :=
  ⟨c.position.down n, c.rest⟩

/-! ## Tokens -/

/-- The start tag `n` lines further down. -/
def StartTag.down (n : Nat) (tag : StartTag) : StartTag :=
  { tag with start := tag.start.down n, stop := tag.stop.down n }

namespace Token

variable (n : Nat)

/-- The token `n` lines further down. -/
def down : Token → Token
  | aside ended => aside ended
  | endTag name stop => endTag name (stop.down n)
  | startTag tag => startTag (tag.down n)
  | stray => stray

variable {n}

theorem eq_down_of_elsewhere {token token' : Token}
    (h : Elsewhere (fun p q => q = p.down n) token token') : token' = token.down n := by
  cases h with
  | aside ended => rfl
  | endTag name h => rw [h, down]
  | startTag hname hstart hstop hbody hending =>
    rw [down, StartTag.down, hname, hbody, hending, ← hstart, ← hstop]
  | stray => rfl

/-- The tokens of a text that stands `n` lines further down stand `n` lines further down. -/
theorem readAll_down (c : Cursor) : readAll (c.down n) = (readAll c).map (down n) := by
  have hread : List.Forall₂ (Elsewhere fun p q => q = p.down n) (readAll c) (readAll (c.down n)) :=
    forall₂_readAll (Position.carried_down n) ⟨rfl, rfl⟩
  rw [← List.forall₂_eq_eq_eq, List.forall₂_map_right_iff]
  exact hread.flip.imp fun _ _ => eq_down_of_elsewhere

end Token

end Markup

end MarkupOutline
