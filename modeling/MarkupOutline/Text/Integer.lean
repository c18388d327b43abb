import MarkupOutline.Text.Blank
import MarkupOutline.Text.Digit

/-!
# Integers in text

An integer is written with an optional sign and decimal digits of any script; one underscore may
stand between two digits, leading zeros are allowed, and white space around the number is ignored.
-/

namespace MarkupOutline.Text

/-- The number that `n` followed by more digits denotes; an underscore has to be followed by a
digit. -/
def readDigitsFrom? (value? : Char → Option Nat) (n : Nat) : List Char → Option Nat
  | [] => some n
  | '_' :: c :: rest =>
    match value? c with
    | some d => readDigitsFrom? value? (10 * n + d) rest
    | none => none
  | c :: rest =>
    match value? c with
    | some d => readDigitsFrom? value? (10 * n + d) rest
    | none => none

/-- The number denoted by digits with single underscores between them. -/
def readDigits? (value? : Char → Option Nat) : List Char → Option Nat
  | [] => none
  | c :: rest => (value? c).bind fun d => readDigitsFrom? value? d rest

/-- The number denoted by an optional sign and digits. -/
def readSigned? (value? : Char → Option Nat) : List Char → Option Int
  | '-' :: rest => (readDigits? value? rest).map fun n => -(n : Int)
  | '+' :: rest => (readDigits? value? rest).map Int.ofNat
  | cs => (readDigits? value? cs).map Int.ofNat

/-- The integer that a text denotes, if it denotes one. -/
def readInteger? (cs : List Char) : Option Int :=
  readSigned? digitValue? (trimBy isWhiteSpace cs)

end MarkupOutline.Text
