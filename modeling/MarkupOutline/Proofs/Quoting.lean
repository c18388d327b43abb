import MarkupOutline.Proofs.TagAttributes

/-!
# Quotation marks in tags

A `>` ends a tag unless it stands inside quotation marks. Which mark is open is known behind every
character (`quoteBehind?`), and none is open behind text that is made of complete values and of
other characters (`balanced_iff`). Blanks neither open nor close a value (`quoteBehind?_congr`).
-/

namespace MarkupOutline

/-- The text without its blanks. -/
def Text.withoutBlanks (cs : List Char) : List Char :=
  cs.filter fun c => !isBlank c

namespace Markup

/-! ## The mark that is open -/

/-- The quotation mark that is open behind some text if `quote` is in front of it; nothing if the
text contains a `>` that ends a tag. -/
def quoteBehind? (quote : Option Char) : List Char → Option (Option Char)
  | [] => some quote
  | c :: cs =>
    match quote with
    | some q => quoteBehind? (if c = q then none else some q) cs
    | none =>
      if c = '>' then none
      else quoteBehind? (if Attributes.isQuote c then some c else none) cs

variable {quote quote' : Option Char} {q : Char} {cs : List Char}

theorem quoteBehind?_some_cons (q c : Char) (cs : List Char) :
    quoteBehind? (some q) (c :: cs) = quoteBehind? (if c = q then none else some q) cs := rfl

theorem quoteBehind?_none_cons (c : Char) (cs : List Char) :
    quoteBehind? none (c :: cs) =
      if c = '>' then none
      else quoteBehind? (if Attributes.isQuote c then some c else none) cs := rfl

theorem quoteBehind?_append (quote : Option Char) (xs ys : List Char) :
    quoteBehind? quote (xs ++ ys) = (quoteBehind? quote xs).bind fun q => quoteBehind? q ys := by
  induction xs generalizing quote with
  | nil => rfl
  | cons x xs ih =>
    rw [List.cons_append]
    cases quote with
    | some q => exact ih _
    | none =>
      rw [quoteBehind?_none_cons, quoteBehind?_none_cons]
      split
      · rfl
      · exact ih _

/-- Only quotation marks are ever open. -/
theorem isQuote_of_mem_open {c : Char} :
    ∀ q ∈ (if Attributes.isQuote c then some c else none), Attributes.isQuote q := by
  split
  · next hc => simpa using hc
  · simp

theorem isQuote_of_mem_close {c : Char} (hq : ∀ q' ∈ some q, Attributes.isQuote q') :
    ∀ q' ∈ (if c = q then none else some q), Attributes.isQuote q' := by
  split
  · simp
  · exact hq

theorem isQuote_of_quoteBehind?_eq_some (hquote : ∀ q ∈ quote, Attributes.isQuote q)
    (h : quoteBehind? quote cs = some quote') : ∀ q ∈ quote', Attributes.isQuote q := by
  induction cs generalizing quote with
  | nil =>
    rw [← Option.some.inj h]
    exact hquote
  | cons c cs ih =>
    cases quote with
    | some q => exact ih (isQuote_of_mem_close hquote) h
    | none =>
      rw [quoteBehind?_none_cons] at h
      split at h
      · simp at h
      · exact ih isQuote_of_mem_open h

/-- A value ends at the mark that began it. -/
theorem quoteBehind?_value {value : List Char} (hvalue : q ∉ value) (cs : List Char) :
    quoteBehind? (some q) (value ++ q :: cs) = quoteBehind? none cs := by
  induction value with
  | nil => rw [List.nil_append, quoteBehind?_some_cons, if_pos rfl]
  | cons c value ih =>
    rw [List.mem_cons, not_or] at hvalue
    rw [List.cons_append, quoteBehind?_some_cons, if_neg (Ne.symm hvalue.1), ih hvalue.2]

/-- A tag ends at a `>` in front of which no mark is open. -/
theorem quoteBehind?_eq_none_iff : quoteBehind? quote cs = none ↔
    ∃ front more, cs = front ++ '>' :: more ∧ quoteBehind? quote front = some none := by
  constructor
  · intro h
    induction cs generalizing quote with
    | nil => simp [quoteBehind?] at h
    | cons c cs ih =>
      cases quote with
      | some q =>
        obtain ⟨front, more, rfl, hfront⟩ := ih h
        exact ⟨c :: front, more, rfl, hfront⟩
      | none =>
        rw [quoteBehind?_none_cons] at h
        split at h
        · next hc => exact ⟨[], cs, by rw [hc]; rfl, rfl⟩
        · next hc =>
          obtain ⟨front, more, rfl, hfront⟩ := ih h
          refine ⟨c :: front, more, rfl, ?_⟩
          rw [quoteBehind?_none_cons, if_neg hc, hfront]
  · rintro ⟨front, more, rfl, hfront⟩
    rw [quoteBehind?_append, hfront]
    rfl

theorem plain_of_isBlank {c : Char} (h : Text.isBlank c) : c ≠ '>' ∧ ¬ Attributes.isQuote c := by
  constructor
  · rintro rfl
    exact absurd h (by decide)
  · exact fun hquote => Attributes.not_isBlank_of_isQuote hquote h

/-- Blanks leave open what is open. -/
theorem quoteBehind?_cons_of_isBlank {c : Char} (hquote : ∀ q ∈ quote, Attributes.isQuote q)
    (hc : Text.isBlank c) (cs : List Char) : quoteBehind? quote (c :: cs) = quoteBehind? quote cs := by
  obtain ⟨hend, hplain⟩ := plain_of_isBlank hc
  cases quote with
  | some q =>
    have hne : c ≠ q := by
      rintro rfl
      exact hplain (hquote c rfl)
    rw [quoteBehind?_some_cons, if_neg hne]
  | none => rw [quoteBehind?_none_cons, if_neg hend, if_neg hplain]

theorem quoteBehind?_withoutBlanks (hquote : ∀ q ∈ quote, Attributes.isQuote q) (cs : List Char) :
    quoteBehind? quote (Text.withoutBlanks cs) = quoteBehind? quote cs := by
  induction cs generalizing quote with
  | nil => rfl
  | cons c cs ih =>
    by_cases hc : Text.isBlank c
    · rw [quoteBehind?_cons_of_isBlank hquote hc, ← ih hquote, Text.withoutBlanks,
        List.filter_cons_of_neg (by simp [hc])]
      rfl
    · have hkept : Text.withoutBlanks (c :: cs) = c :: Text.withoutBlanks cs :=
        List.filter_cons_of_pos (by simp [hc])
      rw [hkept]
      cases quote with
      | some q =>
        rw [quoteBehind?_some_cons, quoteBehind?_some_cons]
        exact ih (isQuote_of_mem_close hquote)
      | none =>
        rw [quoteBehind?_none_cons, quoteBehind?_none_cons, ih isQuote_of_mem_open]

/-- Texts that differ in their blanks alone leave the same open. -/
theorem quoteBehind?_congr {cs ds : List Char}
    (h : Text.withoutBlanks cs = Text.withoutBlanks ds) :
    quoteBehind? none cs = quoteBehind? none ds := by
  rw [← quoteBehind?_withoutBlanks (by simp), h, quoteBehind?_withoutBlanks (by simp)]

/-! ## Balanced text -/

/-- Text in which every value is complete: characters other than quotation marks and `>`, and
values between two equal marks. -/
inductive Balanced : List Char → Prop
  | nil : Balanced []
  | plain {c : Char} {cs : List Char} (hend : c ≠ '>') (hquote : ¬ Attributes.isQuote c)
      (rest : Balanced cs) : Balanced (c :: cs)
  | quoted {q : Char} {value cs : List Char} (hquote : Attributes.isQuote q) (hvalue : q ∉ value)
      (rest : Balanced cs) : Balanced (q :: (value ++ q :: cs))

/-- The text is balanced, or it ends the value that is open in front of it and is balanced from
there on. -/
theorem balanced_of_quoteBehind? (h : quoteBehind? quote cs = some none) :
    match quote with
    | none => Balanced cs
    | some q => ∃ value rest, cs = value ++ q :: rest ∧ q ∉ value ∧ Balanced rest := by
  induction cs generalizing quote with
  | nil =>
    obtain rfl : quote = none := Option.some.inj h
    exact .nil
  | cons c cs ih =>
    cases quote with
    | some q =>
      by_cases hc : c = q
      · rw [quoteBehind?_some_cons, if_pos hc] at h
        exact ⟨[], cs, by rw [hc]; rfl, by simp, ih h⟩
      · rw [quoteBehind?_some_cons, if_neg hc] at h
        obtain ⟨value, rest, rfl, hvalue, hrest⟩ := ih h
        exact ⟨c :: value, rest, rfl, by simp [Ne.symm hc, hvalue], hrest⟩
    | none =>
      rw [quoteBehind?_none_cons] at h
      split at h
      · simp at h
      · next hend =>
        split at h
        · next hquote =>
          obtain ⟨value, rest, rfl, hvalue, hrest⟩ := ih h
          exact .quoted hquote hvalue hrest
        · next hquote => exact .plain hend hquote (ih h)

/-- Balanced text is that behind which no mark is open and in which no tag ends. -/
theorem balanced_iff : Balanced cs ↔ quoteBehind? none cs = some none := by
  refine ⟨fun h => ?_, fun h => balanced_of_quoteBehind? h⟩
  induction h with
  | nil => rfl
  | plain hend hquote _ ih => rw [quoteBehind?_none_cons, if_neg hend, if_neg hquote, ih]
  | @quoted q value cs hquote hvalue _ ih =>
    have hend : q ≠ '>' := by
      rintro rfl
      exact absurd hquote (by decide)
    rw [quoteBehind?_none_cons, if_neg hend, if_pos hquote, quoteBehind?_value hvalue, ih]

/-! ## Reading the text of a tag -/

/-- Text in which no tag ends is passed over. -/
theorem readBodyFrom_append (h : quoteBehind? quote cs = some quote') (read : List Char)
    (p : Position) (rest : List Char) :
    readBodyFrom quote read p (cs ++ rest) =
      readBodyFrom quote' (cs.reverse ++ read) (p.afterAll cs) rest := by
  induction cs generalizing quote read p with
  | nil =>
    rw [← Option.some.inj h]
    rfl
  | cons c cs ih =>
    rw [List.cons_append, List.reverse_cons, List.append_assoc]
    cases quote with
    | some q => exact ih h _ _
    | none =>
      rw [quoteBehind?_none_cons] at h
      split at h
      · simp at h
      · next hc =>
        rw [readBodyFrom]
        rw [if_neg hc]
        exact ih h _ _

/-- The text of a tag ends at the first `>` behind balanced text. -/
theorem readBody_of_balanced (h : Balanced cs) (p : Position) (rest : List Char) :
    readBody ⟨p, cs ++ '>' :: rest⟩ = ⟨cs, true, ⟨p.afterAll (cs ++ ['>']), rest⟩⟩ := by
  rw [readBody, readBodyFrom_append (balanced_iff.1 h), readBodyFrom, List.append_nil,
    List.reverse_reverse, Position.afterAll_append]
  rfl

/-- Where no tag ends, all of the text belongs to the tag. -/
theorem readBody_of_quoteBehind? (h : quoteBehind? none cs = some quote) (p : Position) :
    readBody ⟨p, cs⟩ = ⟨cs, false, ⟨p.afterAll cs, []⟩⟩ := by
  have hread := readBodyFrom_append h [] p []
  rw [List.append_nil, List.append_nil, readBodyFrom, List.reverse_reverse] at hread
  exact hread

end Markup

end MarkupOutline
