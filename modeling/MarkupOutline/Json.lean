import MarkupOutline.Binary64
import MarkupOutline.Text.Surrogate

/-!
# JSON values

`Json` is the data that requests bring and answers are written in. The fields of an object keep
their order. `Json.write` prints a value over several lines, and `Json.encodeFrom` tells whether the
value, written on one line, can be encoded.
-/

namespace MarkupOutline

/-- A JSON value. A number with a fraction or an exponent is its mantissa with the decimal point
`scale` digits from the right. -/
inductive Json where
  | null
  | bool (b : Bool)
  | integer (n : Int)
  | decimal (mantissa : Int) (scale : Nat)
  | string (s : String)
  | garbled (s : Garbled)
  | array (items : List Json)
  | object (fields : List (String × Json))
deriving Repr, Inhabited

namespace Json

/-- A string as it was sent. -/
def ofSent : Sent → Json
  | .text s => string s
  | .garbled s => garbled s

/-- The value of a field, if the value is an object that has it. -/
def field? (name : String) : Json → Option Json
  | object fields => fields.lookup name
  | _ => none

/-- A count. -/
def ofNat (n : Nat) : Json :=
  integer n

/-! ## Decimal numbers -/

/-- What a one with `scale` zeros behind it denotes. -/
def powerOfTen (scale : Nat) : Nat :=
  Nat.pow 10 scale

/-- The integer that a decimal number is, if it is one once it is held with double precision. -/
def wholeNumber? (mantissa : Int) (scale : Nat) : Option Int :=
  (Binary64.ofRatio mantissa.natAbs (powerOfTen scale)).toNat?.map fun n =>
    if mantissa < 0 then -(n : Int) else n

/-! ## Printing -/

/-- How a character is written inside a string. -/
def escapeChar (c : Char) : List Char :=
  match c with
  | '"' => ['\\', '"']
  | '\\' => ['\\', '\\']
  | '\x08' => ['\\', 'b']
  | '\x0C' => ['\\', 'f']
  | '\n' => ['\\', 'n']
  | '\r' => ['\\', 'r']
  | '\t' => ['\\', 't']
  | c =>
    if c.toNat < 0x20 then '\\' :: 'u' :: (Nat.toDigits 16 c.toNat).leftpad 4 '0' else [c]

/-- A string with its quotation marks. -/
def writeString (s : String) : String :=
  String.ofList ('"' :: s.toList.flatMap escapeChar ++ ['"'])

/-- A number with `scale` digits behind the point. -/
def writeDecimal (mantissa : Int) (scale : Nat) : String :=
  let whole := mantissa.natAbs / powerOfTen scale
  let part := (Nat.toDigits 10 (mantissa.natAbs % powerOfTen scale)).leftpad scale '0'
  (if mantissa < 0 then "-" else "") ++ toString whole ++ "." ++ String.ofList part

/-- A new line, two blanks in for each level. -/
def newLine (level : Nat) : String :=
  String.ofList ('\n' :: List.replicate (2 * level) ' ')

mutual

/-- Appends a value to `out`; the lines that it fills stand at `level` or deeper. -/
def writeOnto (out : String) (level : Nat) : Json → String
  | null => out ++ "null"
  | bool b => out ++ (if b then "true" else "false")
  | integer n => out ++ toString n
  | decimal mantissa scale => out ++ writeDecimal mantissa scale
  | string s => out ++ writeString s
  | garbled s => out ++ writeString s.shown
  | array [] => out ++ "[]"
  | array (x :: xs) =>
    let first := writeOnto (out ++ "[" ++ newLine (level + 1)) (level + 1) x
    writeItemsOnto first (level + 1) xs ++ newLine level ++ "]"
  | object [] => out ++ "\x7b\x7d"
  | object ((name, x) :: fields) =>
    let first := writeOnto (out ++ "\x7b" ++ newLine (level + 1) ++ writeString name ++ ": ")
      (level + 1) x
    writeFieldsOnto first (level + 1) fields ++ newLine level ++ "\x7d"

/-- Appends the items behind the first one, each on lines of its own. -/
def writeItemsOnto (out : String) (level : Nat) : List Json → String
  | [] => out
  | x :: xs => writeItemsOnto (writeOnto (out ++ "," ++ newLine level) level x) level xs

/-- Appends the fields behind the first one, each on lines of its own. -/
def writeFieldsOnto (out : String) (level : Nat) : List (String × Json) → String
  | [] => out
  | (name, x) :: fields =>
    writeFieldsOnto
      (writeOnto (out ++ "," ++ newLine level ++ writeString name ++ ": ") level x) level fields

end

/-- A value printed over several lines, two blanks in for each level. -/
def write (value : Json) : String :=
  writeOnto "" 0 value

/-! ## Encoding -/

mutual

/-- Where a value ends that is written on one line from the place `n` on, unless a string in it
cannot be encoded. -/
def encodeFrom (n : Nat) : Json → Except Unencodable Nat
  | null => .ok (n + 4)
  | bool b => .ok (n + if b then 4 else 5)
  | integer i => .ok (n + (toString i).length)
  | decimal mantissa scale => .ok (n + (writeDecimal mantissa scale).length)
  | string s => .ok (n + (writeString s).length)
  -- the part in front of the surrogate has a quotation mark in front of it, and none behind it
  | garbled s => .error (s.unencodable (n + (writeString s.before).length - 1))
  | array [] => .ok (n + 2)
  | array (x :: xs) => do
    let m ← encodeFrom (n + 1) x
    encodeItemsFrom m xs
  | object [] => .ok (n + 2)
  | object ((name, x) :: fields) => do
    let m ← encodeFrom (n + 1 + (writeString name).length + 1) x
    encodeFieldsFrom m fields

/-- Where an array ends if its items from the second on stand at the place `n`. -/
def encodeItemsFrom (n : Nat) : List Json → Except Unencodable Nat
  | [] => .ok (n + 1)
  | x :: xs => do
    let m ← encodeFrom (n + 1) x
    encodeItemsFrom m xs

/-- Where an object ends if its fields from the second on stand at the place `n`. -/
def encodeFieldsFrom (n : Nat) : List (String × Json) → Except Unencodable Nat
  | [] => .ok (n + 1)
  | (name, x) :: fields => do
    let m ← encodeFrom (n + 1 + (writeString name).length + 1) x
    encodeFieldsFrom m fields

end

end Json

end MarkupOutline
