import MarkupOutline.CommandLine.Place

/-!
# Arguments

The words of a command line name one file and any number of options.

* A long option may be shortened to any beginning that only it has, and may be given its value
  behind an equals sign.
* One-letter options may share a dash, also behind an equals sign; letters that are no options are
  refused.
* Behind `--` every word is an operand; a word that looks like a negative number always is one.

All words are sorted first, so that an option that could mean several things is refused before
anything is done. Then they are taken from left to right.
-/

namespace MarkupOutline.CommandLine

/-! ## Options -/

/-- The options. -/
inductive Switch where
  | help
  | flat
  | place
  | lineNumbers
  | json
  | strict
  | detect
  | verbose
  | debug
deriving DecidableEq, Repr

/-- The ways to write the options, in the order in which they are tried. -/
def spellings : List (String × Switch) :=
  [("-h", .help), ("--help", .help), ("--flat", .flat), ("--at", .place),
   ("--line-numbers", .lineNumbers), ("--json", .json), ("--strict", .strict),
   ("--detect", .detect), ("-v", .verbose), ("--verbose", .verbose), ("--debug", .debug)]

namespace Switch

/-- The name of an option in messages: all the ways to write it. -/
def name (s : Switch) : String :=
  "/".intercalate ((spellings.filter (·.2 == s)).map (·.1))

/-- Whether an option has a value. -/
def takesValue (s : Switch) : Bool :=
  s == place

end Switch

/-! ## Faults -/

/-- Why a command line is refused. -/
inductive UsageFault where
  /-- A shortened option could be several options. -/
  | ambiguous (word : String) (options : List String)
  /-- An option came without the value it needs. -/
  | valueMissing (s : Switch)
  /-- An option came with a value it does not take. -/
  | valueIgnored (s : Switch) (value : String)
  /-- The value of an option is no place. -/
  | badPlace (fault : PlaceFault)
  /-- Two options exclude each other. -/
  | conflict (s other : Switch)
  /-- No file is named. -/
  | fileMissing
  /-- Words are left over. -/
  | unrecognized (words : List String)
deriving DecidableEq, Repr

/-- The wording of a fault about one option. -/
def aboutOption (s : Switch) (message : String) : String :=
  "argument " ++ s.name ++ ": " ++ message

/-- The wording of a fault. -/
def UsageFault.message : UsageFault → String
  | ambiguous word options =>
    "ambiguous option: " ++ word ++ " could match " ++ ", ".intercalate options
  | valueMissing s => aboutOption s "expected one argument"
  | valueIgnored s value => aboutOption s ("ignored explicit argument " ++ Text.quoted value)
  | badPlace fault => aboutOption .place fault.message
  | conflict s other => aboutOption s ("not allowed with argument " ++ other.name)
  | fileMissing => "the following arguments are required: file"
  | unrecognized words => "unrecognized arguments: " ++ " ".intercalate words

/-! ## Sorting words -/

/-- What a word is. -/
inductive Word where
  | operand (text : String)
  /-- The word `--`. -/
  | separator
  /-- An option, and the value behind its equals sign. -/
  | option (s : Switch) (value : Option String)
  /-- A one-letter option and the letters that share its dash. -/
  | letters (s : Switch) (rest : List Char)
  /-- An option that is none of the options. -/
  | unknown (text : String)
deriving DecidableEq, Repr

/-- A word cut at its first equals sign. -/
def cutAtEquals (cs : List Char) : List Char × Option (List Char) :=
  (cs.takeWhile (· ≠ '='),
    match cs.dropWhile (· ≠ '=') with
    | _ :: value => some value
    | [] => none)

/-- Whether a word is a dash and decimal digits, perhaps with a point before the last of them. -/
def isNegativeNumber (cs : List Char) : Bool :=
  -- one line feed at the very end is not looked at
  let cs := if cs.getLast? = some '\n' then cs.dropLast else cs
  match cs with
  | '-' :: rest =>
    match rest.dropWhile Text.isDecimalDigit with
    | [] => !rest.isEmpty
    | '.' :: places => !places.isEmpty && places.all Text.isDecimalDigit
    | _ => false
  | _ => false

/-- Sorts a word that begins with a dash and is no spelling of an option. -/
def classifyUnspelled (word : String) (cs : List Char) : Word :=
  if isNegativeNumber cs || cs.contains ' ' then .operand word else .unknown word

/-- Sorts a word that begins with two dashes and is no spelling of an option. -/
def classifyLong (word : String) (cs : List Char) : Except UsageFault Word :=
  let (beginning, value) := cutAtEquals cs
  match spellings.filter fun spelling => beginning.isPrefixOf spelling.1.toList with
  | [] => .ok (classifyUnspelled word cs)
  | [spelling] => .ok (.option spelling.2 (value.map String.ofList))
  | several => .error (.ambiguous word (several.map (·.1)))

/-- Sorts a word that begins with one dash and is no spelling of an option. -/
def classifyShort (word : String) (cs : List Char) : Word :=
  match spellings.lookup (String.ofList (cs.take 2)) with
  | some s => .letters s (cs.drop 2)
  | none => classifyUnspelled word cs

/-- Sorts a word other than `--`. -/
def classify (word : String) : Except UsageFault Word :=
  let cs := word.toList
  if cs.head? ≠ some '-' then .ok (.operand word)
  else match spellings.lookup word with
    | some s => .ok (.option s none)
    | none =>
      if cs.length = 1 then .ok (.operand word)
      else
        let (beginning, value) := cutAtEquals cs
        match value, spellings.lookup (String.ofList beginning) with
        | some value, some s =>
          if cs[1]? = some '-' || value.isEmpty then
            .ok (.option s (some (String.ofList value)))
          else .ok (.letters s value)
        | _, _ =>
          if cs[1]? = some '-' then classifyLong word cs else .ok (classifyShort word cs)

/-- Sorts the words of a command line. -/
def classifyAll : List String → Except UsageFault (List Word)
  | [] => .ok []
  | "--" :: rest => .ok (.separator :: rest.map .operand)
  | word :: rest => do return (← classify word) :: (← classifyAll rest)

/-! ## Taking words -/

/-- What the option for a place was given. -/
inductive PlaceValue where
  | position (p : Position)
  /-- The word `--`, which is no value even behind an equals sign. -/
  | separator
deriving DecidableEq, Repr

/-- Reads the value of the option for a place. -/
def PlaceValue.read (value : String) : Except PlaceFault PlaceValue :=
  if value = "--" then .ok .separator else (readPlace value).map .position

/-- What a command line asks for. -/
structure Options where
  file : String
  flat : Bool
  place : Option PlaceValue
  lineNumbers : Bool
  json : Bool
  strict : Bool
  detect : Bool
  verbose : Bool
  debug : Bool
deriving DecidableEq, Repr

/-- Why words are no longer taken. -/
inductive Stop where
  | help
  | fault (f : UsageFault)
deriving DecidableEq, Repr

/-- The options taken so far, whether the file has been named, and the words left over. -/
structure Progress where
  options : Options
  hasFile : Bool
  leftOver : List String
deriving DecidableEq, Repr

namespace Progress

/-- No word has been taken. -/
def start : Progress :=
  ⟨⟨"", false, none, false, false, false, false, false, false⟩, false, []⟩

/-- Takes an option without a value. -/
def take (p : Progress) (s : Switch) : Except Stop Progress :=
  let o := p.options
  match s with
  | .help => .error .help
  | .flat =>
    if o.place.isSome then .error (.fault (.conflict .flat .place))
    else .ok { p with options := { o with flat := true } }
  | .place => .error (.fault (.valueMissing .place))
  | .lineNumbers => .ok { p with options := { o with lineNumbers := true } }
  | .json => .ok { p with options := { o with json := true } }
  | .strict => .ok { p with options := { o with strict := true } }
  | .detect => .ok { p with options := { o with detect := true } }
  | .verbose => .ok { p with options := { o with verbose := true } }
  | .debug => .ok { p with options := { o with debug := true } }

/-- Takes a place. A text that is none is refused before options are compared. -/
def takePlace (p : Progress) (value : String) : Except Stop Progress :=
  match PlaceValue.read value with
  | .error fault => .error (.fault (.badPlace fault))
  | .ok place =>
    if p.options.flat then .error (.fault (.conflict .place .flat))
    else .ok { p with options := { p.options with place := some place } }

/-- Takes an operand: the first names the file. -/
def takeOperand (p : Progress) (text : String) : Progress :=
  if p.hasFile then { p with leftOver := p.leftOver ++ [text] }
  else { p with options := { p.options with file := text }, hasFile := true }

/-- Leaves a word over. -/
def leave (p : Progress) (text : String) : Progress :=
  { p with leftOver := p.leftOver ++ [text] }

end Progress

/-- The options that share a dash. What follows the last letter that is an option counts as a value
given to that option. -/
def letterSwitches (s : Switch) : List Char → Except UsageFault (List Switch)
  | [] => .ok [s]
  | c :: rest =>
    match spellings.lookup (String.ofList ['-', c]) with
    | some next => do return s :: (← letterSwitches next rest)
    | none => .error (.valueIgnored s (String.ofList (c :: rest)))

/-- Takes the options that share a dash, once all its letters are known to be options. -/
def takeLetters (p : Progress) (s : Switch) (rest : List Char) : Except Stop Progress :=
  match letterSwitches s rest with
  | .error fault => .error (.fault fault)
  | .ok switches => switches.foldlM Progress.take p

/-- Takes the words one by one. A `--` next to the operand that names the file vanishes. -/
def takeAll (p : Progress) : List Word → Except Stop Progress
  | [] => .ok p
  -- when the file has been named before, both words are left over
  | .operand text :: .separator :: rest =>
    takeAll (if p.hasFile then (p.leave text).leave "--" else p.takeOperand text) rest
  | .operand text :: rest => takeAll (p.takeOperand text) rest
  | .separator :: .operand text :: rest =>
    takeAll (if p.hasFile then (p.leave "--").leave text else p.takeOperand text) rest
  | .separator :: rest => takeAll (p.leave "--") rest
  | .unknown text :: rest => takeAll (p.leave text) rest
  | .letters s letters :: rest => do takeAll (← takeLetters p s letters) rest
  | .option s (some value) :: rest =>
    if s.takesValue then do takeAll (← p.takePlace value) rest
    else .error (.fault (.valueIgnored s value))
  | .option s none :: rest =>
    if s.takesValue then
      -- the value is the next word, unless that is an option or `--`
      match rest with
      | .operand value :: rest => do takeAll (← p.takePlace value) rest
      | _ => .error (.fault (.valueMissing s))
    else do takeAll (← p.take s) rest

/-- Reads a command line. -/
def readArguments (words : List String) : Except Stop Options :=
  match classifyAll words with
  | .error fault => .error (.fault fault)
  | .ok sorted =>
    match takeAll .start sorted with
    | .error stop => .error stop
    | .ok p =>
      if !p.hasFile then .error (.fault .fileMissing)
      else if p.leftOver ≠ [] then .error (.fault (.unrecognized p.leftOver))
      else .ok p.options

end MarkupOutline.CommandLine
