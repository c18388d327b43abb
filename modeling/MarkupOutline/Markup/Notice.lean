import MarkupOutline.Log.Record

/-!
# Notices and failures of reading

Reading never gives up on malformed markup; it leaves notices of what it met. Only a strict reading
fails, at the first end tag that does not match the element it would close.
-/

namespace MarkupOutline.Markup

/-- An end tag, the tag of the element it would close, and the line on which it stands. -/
structure Mismatch where
  expected : String
  found : String
  line : Int
deriving DecidableEq, Repr

/-- The wording of a mismatch, with the line counted from 1. -/
def Mismatch.message (m : Mismatch) : String :=
  "Closing tag </" ++ m.found ++ "> on line " ++ toString (m.line + 1) ++
    " does not match <" ++ m.expected ++ ">"

/-- Why a document could not be read. -/
inductive Failure where
  | mismatch (m : Mismatch)
  /-- The reader broke off for a reason of its own. -/
  | interrupted (reason : String)
deriving DecidableEq, Repr

/-- The wording of a failure. -/
def Failure.message : Failure → String
  | mismatch m => m.message
  | interrupted reason => reason

/-- What a reading has to tell. -/
inductive Notice where
  /-- An end tag was met while nothing was open. -/
  | unmatched (tag : String) (line : Int)
  /-- An end tag closed an element of another tag. -/
  | mismatched (m : Mismatch)
  /-- The whole text was read. -/
  | finished (elements lines roots : Nat)
deriving DecidableEq, Repr

/-- The record of a notice. -/
def Notice.record : Notice → Log.Record
  | unmatched tag line =>
    ⟨.debug, "axaml_outline.scanner", "Ignoring unmatched closing tag",
      [("line", .number line), ("tag", .text tag)]⟩
  | mismatched m =>
    ⟨.debug, "axaml_outline.scanner", "Closing tag does not match open element",
      [("expected", .text m.expected), ("found", .text m.found), ("line", .number m.line)]⟩
  | finished elements lines roots =>
    ⟨.debug, "axaml_outline.scanner", "Scanned AXAML document",
      [("elements", .number elements), ("lines", .number lines), ("roots", .number roots)]⟩

end MarkupOutline.Markup
