import MarkupOutline.Json
import MarkupOutline.Position
import MarkupOutline.Text.PaddedInteger

/-!
# Fields of incoming data

Values that come from outside are read field by field. A field that does not fit is a `Problem`,
and all problems of a value are reported together, in the order of its fields (`Checked`).
-/

namespace MarkupOutline.Field

/-! ## Problems -/

/-- Why a value does not fit. -/
inductive Fault where
  | missing
  | notObject
  | notString
  | emptyUri
  | garbled
  | notInteger
  | unreadableInteger
  | oversizedInteger
  | fractional
  | negative
  | belowOne
  | notBoolean
  | unreadableBoolean
  | notKind
  | reversedSpan (bounds : Span.Reversed)
deriving DecidableEq, Repr

namespace Fault

/-- The short name under which a fault is reported. -/
def code : Fault → String
  | missing => "missing"
  | notObject => "model_attributes_type"
  | notString => "string_type"
  | emptyUri => "value_error"
  | garbled => "string_unicode"
  | notInteger => "int_type"
  | unreadableInteger => "int_parsing"
  | oversizedInteger => "int_parsing_size"
  | fractional => "int_from_float"
  | negative => "greater_than_equal"
  | belowOne => "greater_than_equal"
  | notBoolean => "bool_type"
  | unreadableBoolean => "bool_parsing"
  | notKind => "enum"
  | reversedSpan _ => "value_error"

/-- The wording of a fault. -/
def message : Fault → String
  | missing => "Field required"
  | notObject => "Input should be a valid dictionary or object to extract fields from"
  | notString => "Input should be a valid string"
  | emptyUri => "Value error, uri cannot be empty"
  | garbled => "Input should be a valid string, unable to parse raw data as a unicode string"
  | notInteger => "Input should be a valid integer"
  | unreadableInteger =>
    "Input should be a valid integer, unable to parse string as an integer"
  | oversizedInteger => "Unable to parse input string as an integer, exceeded maximum size"
  | fractional => "Input should be a valid integer, got a number with a fractional part"
  | negative => "Input should be greater than or equal to 0"
  | belowOne => "Input should be greater than or equal to 1"
  | notBoolean => "Input should be a valid boolean"
  | unreadableBoolean => "Input should be a valid boolean, unable to interpret input"
  | notKind =>
    "Input should be 'class', 'package', 'function', 'string', 'array', 'file' or 'object'"
  | reversedSpan bounds => "Value error, " ++ bounds.message

end Fault

/-- A fault and the field it was found in, none for the value as a whole. -/
structure Problem where
  path : List String
  fault : Fault
deriving DecidableEq, Repr

/-- The wording of a problem. -/
def Problem.message (p : Problem) : String :=
  ".".intercalate p.path ++ ": " ++ p.fault.message

/-- The wording of several problems. -/
def messages (ps : List Problem) : String :=
  "; ".intercalate (ps.map Problem.message)

/-- A value, or all the problems of what it was to be read from. -/
structure Checked (α : Type) where
  result : Except (List Problem) α

namespace Checked

/-- The problems found. -/
def problems {α : Type} (c : Checked α) : List Problem :=
  match c.result with
  | .ok _ => []
  | .error ps => ps

/-- Applies a checked function to a checked value; the problems of both add up. -/
def apply {α β : Type} (f : Checked (α → β)) (x : Checked α) : Checked β :=
  match f.result, x.result with
  | .ok g, .ok a => ⟨.ok (g a)⟩
  | _, _ => ⟨.error (f.problems ++ x.problems)⟩

theorem problems_apply {α β : Type} (f : Checked (α → β)) (x : Checked α) :
    (apply f x).problems = f.problems ++ x.problems := by
  obtain ⟨f | f⟩ := f <;> obtain ⟨x | x⟩ := x <;> simp [apply, problems]

instance : Applicative Checked where
  pure a := ⟨.ok a⟩
  seq f x := apply f (x ())

end Checked

/-! ## Reading values -/

/-- A string, as it was sent. -/
def sent : Json → Except Fault Sent
  | .string s => .ok (.text s)
  | .garbled s => .ok (.garbled s)
  | _ => .error .notString

/-- A string, with U+FFFD for what is no character. -/
def string (value : Json) : Except Fault String :=
  (sent value).map Sent.shown

/-- A value, or nothing. -/
def nullable {α : Type} (reader : Json → Except Fault α) : Json → Except Fault (Option α)
  | .null => .ok none
  | value => (reader value).map some

/-- A string that names a document, without the blanks around it. -/
def uri (value : Json) : Except Fault Sent := do
  match ← sent value with
  | .text s =>
    let trimmed := Text.trim s.toList
    if trimmed = [] then .error .emptyUri else .ok (.text (String.ofList trimmed))
  | .garbled s => .ok (.garbled s.trim)

/-- The most characters of an integer that is given as text. -/
def maxIntegerLength : Nat := 4300

/-- The bound that a number with a fraction or an exponent has to stay below, whatever its sign,
to be taken as an integer. -/
def integerBound : Int := 0x8000000000000000

/-- An integer: a whole number, a truth value, or a text that denotes a whole number. -/
def integer : Json → Except Fault Int
  | .integer n => .ok n
  | .bool b => .ok b.toNat
  | .decimal mantissa scale =>
    match Json.wholeNumber? mantissa scale with
    | some n => if n.natAbs < integerBound then .ok n else .error .oversizedInteger
    | none => .error .fractional
  | .string s =>
    match Text.readPaddedInteger? s.toList with
    | some n => if (toString n).length ≤ maxIntegerLength then .ok n else .error .oversizedInteger
    | none => .error .unreadableInteger
  | .garbled _ => .error .garbled
  | _ => .error .notInteger

/-- An integer that is not negative. -/
def natural (value : Json) : Except Fault Int := do
  let n ← integer value
  if n < 0 then .error .negative else .ok n

/-- The words that are read as a truth value, in small letters. -/
def booleanWords : List (String × Bool) :=
  [("0", false), ("off", false), ("f", false), ("false", false), ("n", false), ("no", false),
   ("1", true), ("on", true), ("t", true), ("true", true), ("y", true), ("yes", true)]

/-- The truth value of a whole number. -/
def booleanOfInteger (n : Int) : Except Fault Bool :=
  if n = 0 then .ok false else if n = 1 then .ok true else .error .unreadableBoolean

/-- A truth value, the number 0 or 1, or one of the words. A number that does not fit into 64 bits
is as little a truth value as one with a fraction. -/
def boolean : Json → Except Fault Bool
  | .bool b => .ok b
  | .integer n =>
    if -integerBound ≤ n ∧ n < integerBound then booleanOfInteger n else .error .notBoolean
  | .decimal mantissa scale =>
    match Json.wholeNumber? mantissa scale with
    | some n => if n.natAbs < integerBound then booleanOfInteger n else .error .notBoolean
    | none => .error .notBoolean
  | .string s =>
    match booleanWords.lookup (String.ofList (s.toList.map Char.toLower)) with
    | some b => .ok b
    | none => .error .unreadableBoolean
  | .garbled _ => .error .garbled
  | _ => .error .notBoolean

/-! ## Reading fields -/

/-- Reads the value of a field. -/
def read {α : Type} (reader : Json → Except Fault α) (name : String) (value : Json) : Checked α :=
  match reader value with
  | .ok a => ⟨.ok a⟩
  | .error fault => ⟨.error [⟨[name], fault⟩]⟩

/-- Reads a field that has to be there. -/
def required {α : Type} (reader : Json → Except Fault α) (name : String) :
    Option Json → Checked α
  | some value => read reader name value
  | none => ⟨.error [⟨[name], .missing⟩]⟩

/-- Reads a field, or takes `default` when it is not there. -/
def optional {α : Type} (reader : Json → Except Fault α) (default : α) (name : String) :
    Option Json → Checked α
  | some value => read reader name value
  | none => ⟨.ok default⟩

end MarkupOutline.Field
