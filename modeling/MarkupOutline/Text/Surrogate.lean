import MarkupOutline.Text.Blank

/-!
# Surrogates

A string that comes from outside need not be a text: an escape may name one half of a surrogate pair
without the other, and a surrogate is no character. Such a string can be kept, compared and trimmed,
but it has no encoding (`Garbled.unencodable`).
-/

namespace MarkupOutline

/-- A code point that is no character. -/
structure Surrogate where
  code : Nat
  isSurrogate : 0xD800 ≤ code ∧ code < 0xE000
deriving DecidableEq, Repr

/-- A string that is no text, since a surrogate stands in it; the first one is `first`. -/
structure Garbled where
  before : String
  first : Surrogate
  behind : List (Char ⊕ Surrogate)
deriving DecidableEq, Repr

/-- A run of surrogates that cannot be encoded, and the place where it begins. -/
structure Unencodable where
  first : Surrogate
  count : Nat
  place : Nat
deriving DecidableEq, Repr

/-- The wording of a failure to encode. -/
def Unencodable.message (e : Unencodable) : String :=
  let what :=
    if e.count = 1 then
      "character '\\u" ++ String.ofList (Nat.toDigits 16 e.first.code) ++ "' in position " ++
        toString e.place
    else
      "characters in position " ++ toString e.place ++ "-" ++ toString (e.place + e.count - 1)
  "'utf-8' codec can't encode " ++ what ++ ": surrogates not allowed"

namespace Garbled

/-- The failure to encode a string whose first surrogate comes to stand at `place`. -/
def unencodable (g : Garbled) (place : Nat) : Unencodable :=
  ⟨g.first, 1 + (g.behind.takeWhile Sum.isRight).length, place⟩

/-- The string with U+FFFD for every surrogate. -/
def shown (g : Garbled) : String :=
  g.before ++ String.ofList
    ('\uFFFD' :: g.behind.map fun
      | .inl c => c
      | .inr _ => '\uFFFD')

/-- Whether a code point is a blank character. -/
def isBlank : Char ⊕ Surrogate → Bool
  | .inl c => Text.isBlank c
  | .inr _ => false

/-- The string without the blanks at either end. -/
def trim (g : Garbled) : Garbled where
  before := String.ofList (g.before.toList.dropWhile Text.isBlank)
  first := g.first
  behind := (g.behind.reverse.dropWhile isBlank).reverse

end Garbled

/-- A string as it was sent. -/
inductive Sent where
  | text (s : String)
  | garbled (g : Garbled)
deriving DecidableEq, Repr

/-- A string as it is shown in a text. -/
def Sent.shown : Sent → String
  | text s => s
  | garbled g => g.shown

end MarkupOutline
