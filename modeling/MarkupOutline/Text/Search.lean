/-!
# Searching a text

Whether one text occurs in, or ends, another, how much of a text is left behind a run of
characters, and what a character that follows makes no difference to.
-/

namespace MarkupOutline.Text

/-- Whether `needle` stands somewhere in the text. -/
def occursIn (needle : List Char) : List Char → Bool
  | [] => needle.isEmpty
  | c :: rest => needle.isPrefixOf (c :: rest) || occursIn needle rest

/-- The number of characters in front of the first `mark` in a text, `n` more counted in. -/
def findFrom? (mark : List Char) (n : Nat) : List Char → Option Nat
  | [] => none
  | c :: rest => if mark.isPrefixOf (c :: rest) then some n else findFrom? mark (n + 1) rest

/-- The number of characters in front of the first `mark` in a text, if there is one. -/
def find? (mark cs : List Char) : Option Nat :=
  findFrom? mark 0 cs

/-- Whether the text ends in `ending`. -/
def endsIn (ending cs : List Char) : Bool :=
  ending.isSuffixOf cs

theorem occursIn_iff {needle cs : List Char} : occursIn needle cs ↔ needle <:+: cs := by
  induction cs with
  | nil => simp [occursIn]
  | cons c rest ih => simp [occursIn, ih, List.infix_cons_iff]

theorem endsIn_iff {ending cs : List Char} : endsIn ending cs ↔ ending <:+ cs := by
  simp [endsIn]

theorem findFrom?_succ (mark cs : List Char) (n : Nat) :
    findFrom? mark (n + 1) cs = (findFrom? mark n cs).map (· + 1) := by
  induction cs generalizing n with
  | nil => rfl
  | cons c rest ih =>
    rw [findFrom?, findFrom?]
    split
    · rfl
    · exact ih (n + 1)

/-- A mark begins with the first character of a text, or it is found behind it. -/
theorem find?_cons (mark : List Char) (c : Char) (rest : List Char) :
    find? mark (c :: rest) =
      if mark.isPrefixOf (c :: rest) then some 0 else (find? mark rest).map (· + 1) := by
  rw [find?, findFrom?, findFrom?_succ]
  rfl

/-- A mark that is found ends within the text. -/
theorem find?_add_length_le {mark cs : List Char} {n : Nat} (h : find? mark cs = some n) :
    n + mark.length ≤ cs.length := by
  induction cs generalizing n with
  | nil => simp [find?, findFrom?] at h
  | cons c rest ih =>
    rw [find?_cons] at h
    split at h
    · next hprefix =>
      rw [← Option.some.inj h, Nat.zero_add]
      exact (List.isPrefixOf_iff_prefix.1 hprefix).length_le
    · obtain ⟨m, hm, rfl⟩ := Option.map_eq_some_iff.1 h
      have hle := ih hm
      rw [List.length_cons]
      omega

theorem length_dropWhile_le {p : Char → Bool} (cs : List Char) :
    (cs.dropWhile p).length ≤ cs.length :=
  (List.dropWhile_suffix p).length_le

/-! ## In front of a character -/

/-- Text without a character does not begin in front of that character and end behind it. -/
theorem prefix_of_prefix_append_cons {mark xs ys : List Char} {y : Char} (hy : y ∉ mark)
    (h : mark <+: xs ++ y :: ys) : mark <+: xs := by
  rcases List.prefix_or_prefix_of_prefix h (List.prefix_append xs _) with hbegins | ⟨more, rfl⟩
  · exact hbegins
  · rw [List.prefix_append_right_inj] at h
    cases more with
    | nil => exact (List.append_nil xs).symm ▸ List.prefix_rfl
    | cons m more =>
      rw [List.cons_prefix_cons] at h
      exact absurd (by simp [h.1]) hy

theorem isPrefixOf_append_cons {mark : List Char} {y : Char} (hy : y ∉ mark) (xs ys : List Char) :
    mark.isPrefixOf (xs ++ y :: ys) = mark.isPrefixOf xs := by
  rw [Bool.eq_iff_iff, List.isPrefixOf_iff_prefix, List.isPrefixOf_iff_prefix]
  exact ⟨prefix_of_prefix_append_cons hy, List.prefix_append_of_prefix⟩

theorem takeWhile_append_cons {p : Char → Bool} {y : Char} (hy : ¬ p y) (xs ys : List Char) :
    (xs ++ y :: ys).takeWhile p = xs.takeWhile p := by
  induction xs with
  | nil => exact List.takeWhile_cons_of_neg hy
  | cons x xs ih => rw [List.cons_append, List.takeWhile_cons, List.takeWhile_cons, ih]

theorem dropWhile_append_cons {p : Char → Bool} {y : Char} (hy : ¬ p y) (xs ys : List Char) :
    (xs ++ y :: ys).dropWhile p = xs.dropWhile p ++ y :: ys := by
  induction xs with
  | nil => exact List.dropWhile_cons_of_neg hy
  | cons x xs ih =>
    rw [List.cons_append, List.dropWhile_cons, List.dropWhile_cons, ih]
    split
    · rfl
    · rfl

end MarkupOutline.Text
