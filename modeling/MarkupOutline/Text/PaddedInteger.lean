import MarkupOutline.Text.Blank
import MarkupOutline.Text.Digit
import MarkupOutline.Text.Integer

/-!
# Padded integers

Data that comes from outside may hold an integer as text: an optional sign, padding, digits with
single underscores between them, and a fraction of zeros alone. White space around it is ignored.

Padding is a zero and all zeros and underscores behind it. Where no digit follows it, its last
character stays as the number. Behind padding, a number without a sign may have a minus sign of its
own.
-/

namespace MarkupOutline.Text

/-! ## Padding and fraction -/

/-- What is left of a text that follows padding with the given last character. -/
def dropPaddingBehind? (last : Char) : List Char → Option (List Char)
  | [] => some [last]
  | c :: rest =>
    if c = '0' ∨ c = '_' then dropPaddingBehind? c rest
    else if c = '.' then some (last :: c :: rest)
    else if c = '-' ∨ isAsciiDigit c then some (c :: rest)
    else none

/-- The number without its padding; it has to begin with a digit. -/
def dropPadding? : List Char → Option (List Char)
  | [] => none
  | c :: rest =>
    if c = '0' then dropPaddingBehind? c rest
    else if isAsciiDigit c then some (c :: rest)
    else none

theorem suffix_of_dropPaddingBehind? {last : Char} {cs number : List Char}
    (h : dropPaddingBehind? last cs = some number) : number <:+ last :: cs := by
  induction cs generalizing last with
  | nil =>
    simp only [dropPaddingBehind?, Option.some.injEq] at h
    exact h ▸ List.suffix_refl [last]
  | cons c rest ih =>
    unfold dropPaddingBehind? at h
    split at h
    · exact (ih h).trans (List.suffix_cons last (c :: rest))
    · split at h
      · simp only [Option.some.injEq] at h
        exact h ▸ List.suffix_refl (last :: c :: rest)
      · split at h
        · simp only [Option.some.injEq] at h
          exact h ▸ List.suffix_cons last (c :: rest)
        · simp at h

/-- Padding is dropped from the front and nothing is put in its place. -/
theorem suffix_of_dropPadding? {cs number : List Char} (h : dropPadding? cs = some number) :
    number <:+ cs := by
  cases cs with
  | nil => simp [dropPadding?] at h
  | cons c rest =>
    simp only [dropPadding?] at h
    split at h
    · exact suffix_of_dropPaddingBehind? h
    · split at h
      · simp only [Option.some.injEq] at h
        exact h ▸ List.suffix_refl (c :: rest)
      · simp at h

/-- The number without its fraction, if that is a point and at least one zero, and zeros alone. -/
def dropZeroFraction (cs : List Char) : List Char :=
  match cs.dropWhile (· ≠ '.') with
  | _ :: zero :: zeros => if (zero :: zeros).all (· == '0') then cs.takeWhile (· ≠ '.') else cs
  | _ => cs

/-! ## Reading -/

/-- The number denoted by the digits `0` to `9` with single underscores between them. -/
def readAsciiDigits? (cs : List Char) : Option Nat :=
  readDigits? asciiDigitValue? cs

/-- The number behind a minus sign that stands behind padding: it may begin with an underscore,
and a zero may only stand alone. -/
def readBehindMinus? (cs : List Char) : Option Nat :=
  let digits := if cs.head? = some '_' then cs.tail else cs
  if digits.head? = some '0' ∧ digits ≠ ['0'] then none else readAsciiDigits? digits

/-- The integer that a number denotes once its padding and its fraction are gone. -/
def readUnpadded? : List Char → Option Int
  | '-' :: cs => (readBehindMinus? cs).map fun n => -(n : Int)
  | cs => (readAsciiDigits? cs).map Int.ofNat

/-- The number without its padding and its fraction. -/
def unpadded? (cs : List Char) : Option (List Char) :=
  (dropPadding? cs).map dropZeroFraction

/-- The integer that a text denotes, if it denotes one. -/
def readPaddedInteger? (cs : List Char) : Option Int :=
  match trimBy isWhiteSpace cs with
  | '-' :: number => ((unpadded? number).bind readAsciiDigits?).map fun n => -(n : Int)
  | '+' :: number => (unpadded? number).bind readUnpadded?
  | number => (unpadded? number).bind readUnpadded?

end MarkupOutline.Text
