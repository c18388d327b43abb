import MarkupOutline.Position
import MarkupOutline.Text.Integer
import MarkupOutline.Text.Quoted

/-!
# Places on the command line

A place is written `LINE:COL` or `LINE`, both counted from 1; a missing column is the first.
-/

namespace MarkupOutline.CommandLine

/-- Why a text is no place. -/
inductive PlaceFault where
  /-- A part of it is no integer. -/
  | malformed (value : String)
  /-- A part of it is less than 1. -/
  | belowOne (value : String)
deriving DecidableEq, Repr

/-- The wording of a text that is no place. -/
def PlaceFault.message : PlaceFault → String
  | malformed value => "Expected LINE:COL, got " ++ Text.quoted value
  | belowOne value => "LINE and COL are 1-based, got " ++ Text.quoted value

/-- The part of a place behind its first colon, if it has one. -/
def columnPart? (cs : List Char) : Option (List Char) :=
  match cs.dropWhile (· ≠ ':') with
  | _ :: column => some column
  | [] => none

/-- The position that a place denotes, counted from 0. -/
def readPlace (value : String) : Except PlaceFault Position :=
  let line? := Text.readInteger? (value.toList.takeWhile (· ≠ ':'))
  let column? := match columnPart? value.toList with
    | some column => Text.readInteger? column
    | none => some 1
  match line?, column? with
  | some line, some column =>
    if line < 1 ∨ column < 1 then .error (.belowOne value) else .ok ⟨line - 1, column - 1⟩
  | _, _ => .error (.malformed value)

end MarkupOutline.CommandLine
