/-!
# Blank characters

The blank characters are the whitespace of Unicode together with the four information
separators U+001C to U+001F. `collapse` makes one space of every run of them and `trim` drops
the runs at both ends.
-/

namespace MarkupOutline.Text

/-- The blank characters. -/
def isBlank (c : Char) : Bool :=
  let n := c.toNat
  (0x09 ≤ n && n ≤ 0x0D) || (0x1C ≤ n && n ≤ 0x20) || n == 0x85 || n == 0xA0 || n == 0x1680 ||
    (0x2000 ≤ n && n ≤ 0x200A) || n == 0x2028 || n == 0x2029 || n == 0x202F || n == 0x205F ||
    n == 0x3000

/-- The blank characters that do not end a line. -/
def isInlineBlank (c : Char) : Bool :=
  isBlank c && c != '\n'

/-- The white space of the Unicode standard: the blank characters without the information
separators. -/
def isWhiteSpace (c : Char) : Bool :=
  isBlank c && !(0x1C ≤ c.toNat && c.toNat ≤ 0x1F)

/-- The text without the characters of a class at either end. -/
def trimBy (skip : Char → Bool) (cs : List Char) : List Char :=
  ((cs.dropWhile skip).reverse.dropWhile skip).reverse

/-- The text without the blanks at either end. -/
def trim (cs : List Char) : List Char :=
  trimBy isBlank cs

/-- Every run of blanks becomes one space. -/
def collapse (cs : List Char) : List Char :=
  cs.foldr (fun c rest =>
    if isBlank c then (if rest.head? = some ' ' then rest else ' ' :: rest) else c :: rest) []

theorem collapse_cons_of_isBlank {c : Char} (hc : isBlank c) (cs : List Char) :
    collapse (c :: cs) =
      if (collapse cs).head? = some ' ' then collapse cs else ' ' :: collapse cs := by
  rw [collapse, List.foldr_cons, if_pos hc]
  rfl

theorem collapse_cons_of_not_isBlank {c : Char} (hc : ¬ isBlank c) (cs : List Char) :
    collapse (c :: cs) = c :: collapse cs := by
  rw [collapse, List.foldr_cons, if_neg hc]
  rfl

/-- A blank in front leaves a space in front. -/
theorem head?_collapse_cons {c : Char} (hc : isBlank c) (cs : List Char) :
    (collapse (c :: cs)).head? = some ' ' := by
  rw [collapse_cons_of_isBlank hc]
  split
  · assumption
  · rfl

/-- The only blank that is left after collapsing is the space. -/
theorem eq_space_of_mem_collapse {c : Char} {cs : List Char} (hc : c ∈ collapse cs)
    (hb : isBlank c) : c = ' ' := by
  unfold collapse at hc
  induction cs with
  | nil => simp at hc
  | cons x cs ih =>
    rw [List.foldr_cons] at hc
    split at hc
    · split at hc
      · exact ih hc
      · rcases List.mem_cons.1 hc with h | h
        · exact h
        · exact ih h
    · next hx =>
      rcases List.mem_cons.1 hc with h | h
      · exact absurd (h ▸ hb) hx
      · exact ih h

theorem isBlank_of_isWhitespace {c : Char} (h : c.isWhitespace) : isBlank c := by
  simp only [Char.isWhitespace, Bool.or_eq_true, decide_eq_true_eq] at h
  rcases h with ((rfl | rfl) | rfl) | rfl <;> rfl

end MarkupOutline.Text
