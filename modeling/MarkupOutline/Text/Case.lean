import MarkupOutline.Text.Range
import MarkupOutline.Text.CaseTable

/-!
# Letter case

`lower` and `upper` write a text in small or capital letters. Both may lengthen it, and a capital
sigma becomes the final form `ς` at the end of a word and `σ` elsewhere.
-/

namespace MarkupOutline.Text

/-- Whether a character is a letter with case, for the rule of the final sigma. -/
def isCased (c : Char) : Bool :=
  inRanges c.toNat casedRanges

/-- Whether the rule of the final sigma passes over a character. -/
def isCaseIgnorable (c : Char) : Bool :=
  inRanges c.toNat caseIgnorableRanges

/-- Whether the first character that counts has case. -/
def beginsCased (cs : List Char) : Bool :=
  (cs.dropWhile isCaseIgnorable).head?.any isCased

/-- The small form of a character that stands alone. -/
def lowerChar (c : Char) : List Char :=
  -- the only character whose small form is longer than itself
  if c = 'İ' then ['i', '\u0307']
  else [((CaseRun.lookup c.toNat lowerRuns).map Char.ofNat).getD c]

/-- The small form of a character between the characters `before` it, nearest first, and those
`behind` it. -/
def lowerBetween (before : List Char) (c : Char) (behind : List Char) : List Char :=
  if c = 'Σ' then (if beginsCased before && !beginsCased behind then ['ς'] else ['σ'])
  else lowerChar c

/-- The small form of the text that follows the characters `before`, nearest first. -/
def lowerFrom (before : List Char) : List Char → List Char
  | [] => []
  | c :: rest => lowerBetween before c rest ++ lowerFrom (c :: before) rest

/-- The text in small letters. -/
def lower (cs : List Char) : List Char :=
  lowerFrom [] cs

/-- The capital form of a character. -/
def upperChar (c : Char) : List Char :=
  match upperSequences.lookup c.toNat with
  | some ns => ns.map Char.ofNat
  | none => [((CaseRun.lookup c.toNat upperRuns).map Char.ofNat).getD c]

/-- The text in capital letters. -/
def upper (cs : List Char) : List Char :=
  cs.flatMap upperChar

end MarkupOutline.Text
