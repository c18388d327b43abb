/-!
# Reading UTF-8

Bytes are read as UTF-8. Where they are not well formed, each longest run that could still have
begun a character becomes one replacement character and reading goes on with the byte after it.
-/

namespace MarkupOutline.Text.Utf8

/-- A character begun: the value of its bits so far, how many bytes are due, and the bounds of the
next of them. -/
structure Begun where
  bits : Nat
  due : Nat
  low : Nat
  high : Nat

/-- What has been read: the characters, last first, and the character begun. -/
structure State where
  out : List Char
  begun : Option Begun

/-- The mark for bytes that are no character. -/
def replacement : Char := '\uFFFD'

/-- A byte at which a character may begin. The bounds of the second byte keep out overlong forms,
surrogates and values beyond the last code point. -/
def start (out : List Char) (b : Nat) : State :=
  if b ≤ 0x7F then ⟨Char.ofNat b :: out, none⟩
  else if 0xC2 ≤ b ∧ b ≤ 0xDF then ⟨out, some ⟨b - 0xC0, 1, 0x80, 0xBF⟩⟩
  else if 0xE0 ≤ b ∧ b ≤ 0xEF then
    ⟨out, some ⟨b - 0xE0, 2, if b = 0xE0 then 0xA0 else 0x80, if b = 0xED then 0x9F else 0xBF⟩⟩
  else if 0xF0 ≤ b ∧ b ≤ 0xF4 then
    ⟨out, some ⟨b - 0xF0, 3, if b = 0xF0 then 0x90 else 0x80, if b = 0xF4 then 0x8F else 0xBF⟩⟩
  else ⟨replacement :: out, none⟩

/-- The state after one more byte. -/
def step (s : State) (byte : UInt8) : State :=
  let b := byte.toNat
  match s.begun with
  | none => start s.out b
  | some g =>
    if g.low ≤ b ∧ b ≤ g.high then
      let bits := g.bits * 64 + (b - 0x80)
      if g.due = 1 then ⟨Char.ofNat bits :: s.out, none⟩
      else ⟨s.out, some ⟨bits, g.due - 1, 0x80, 0xBF⟩⟩
    else start (replacement :: s.out) b

/-- The characters read, once no byte is left. -/
def State.finish (s : State) : List Char :=
  (if s.begun.isSome then replacement :: s.out else s.out).reverse

/-- The characters that bytes denote. -/
def decode (bytes : List UInt8) : List Char :=
  (bytes.foldl step ⟨[], none⟩).finish

/-- The byte order mark. -/
def byteOrderMark : List UInt8 := [0xEF, 0xBB, 0xBF]

/-- The bytes behind a byte order mark in front; an incomplete mark on its own is no text. -/
def dropByteOrderMark (bytes : List UInt8) : List UInt8 :=
  if byteOrderMark.isPrefixOf bytes then bytes.drop 3
  else if bytes.isPrefixOf byteOrderMark then []
  else bytes

end MarkupOutline.Text.Utf8
