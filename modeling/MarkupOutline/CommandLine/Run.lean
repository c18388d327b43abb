import MarkupOutline.CommandLine.Arguments
import MarkupOutline.CommandLine.Path
import MarkupOutline.Encoding
import MarkupOutline.Session
import MarkupOutline.Text.LineEnd
import MarkupOutline.Text.Utf8

/-!
# The command

The command shows the outline of a file, its listing, or the element under a place, as text or as
JSON. Files are reached through a function, so that a run is a pure function of the words of the
command line.
-/

namespace MarkupOutline.CommandLine

/-- What is found under the name of a file. -/
inductive FileContent where
  /-- No file, or something that is no file. -/
  | absent
  /-- A file that cannot be read. -/
  | unreadable (reason : String)
  | bytes (bs : List UInt8)

/-- What a run leaves: the exit code, what it prints, what it prints about errors, and the log
records that pass its threshold. -/
structure Report where
  code : Nat
  output : String
  errors : String
  records : List Log.Record
deriving DecidableEq, Repr

/-- Why a run breaks off without a report. -/
inductive Breakdown where
  /-- The element under a place is to be told, and the option for the place has no value. -/
  | noPlace
deriving DecidableEq, Repr

/-- The wording of a breakdown. -/
def Breakdown.message : Breakdown → String
  | noPlace => "'list' object has no attribute 'line'"

/-! ## Fixed texts -/

/-- How the command is used. -/
def usage : String :=
  "usage: axaml-outline [-h] [--flat | --at LINE:COL] [--line-numbers] [--json]\n" ++
  "                     [--strict] [--detect] [-v] [--debug]\n" ++
  "                     file\n"

/-- What the command does and what its options mean. -/
def helpText : String :=
  usage ++
  "\nPrint the UI element outline of an Avalonia XAML file.\n" ++
  "\npositional arguments:\n" ++
  "  file            Path to the .axaml file\n" ++
  "\noptions:\n" ++
  "  -h, --help      show this help message and exit\n" ++
  "  --flat          Print the flat depth-first symbol list\n" ++
  "  --at LINE:COL   Describe the innermost element at a 1-based position\n" ++
  "  --line-numbers  Show start line numbers in details\n" ++
  "  --json          Emit JSON instead of text\n" ++
  "  --strict        Fail on mismatched closing tags\n" ++
  "  --detect        Only parse files that look like AXAML (extension or Avalonia\n" ++
  "                  namespace)\n" ++
  "  -v, --verbose   Log progress\n" ++
  "  --debug         Log scanner details\n"

/-- What is printed about a command line that is refused. -/
def usageError (f : UsageFault) : String :=
  usage ++ "axaml-outline: error: " ++ f.message ++ "\n"

/-! ## Answers -/

/-- The most levels of an element that the command writes. -/
def maxElementLevels : Nat := 254

/-- The wording of an answer that has too many levels to be written. -/
def notWritten : String :=
  "Error serializing result: Error serializing to JSON: ValueError: " ++ Encoding.tooDeep

/-- The wording of a look-up without a place. -/
def noPosition : String :=
  "Position.__new__() missing 2 required positional arguments: 'line' and 'column'"

/-- The text of the bytes of a file. -/
def fileText (bs : List UInt8) : String :=
  String.ofList (Text.withUniformLineEnds (Text.Utf8.decode (Text.Utf8.dropByteOrderMark bs)))

/-- The lines of a text, each with its end. -/
def printed (lines : List String) : String :=
  String.join (lines.map (· ++ "\n"))

/-- An entry of a listing as a line, two blanks in for each level. -/
def entryLine (e : Listing.Entry) : String :=
  String.ofList (List.replicate (2 * e.depth) ' ') ++ e.label ++ "  <" ++ e.tag ++ ">  line " ++
    toString e.line

/-- What is printed of a JSON value, or the message that it cannot be written. -/
def writtenJson : Option Json → Except String String
  | some value => .ok (printed [value.write])
  | none => .error notWritten

/-- What is printed of the element under a place. -/
def showElement (o : Options) (place : Position) : Option (Tree Element) → Except String String
  | some t =>
    if o.json then writtenJson (Encoding.element? maxElementLevels t)
    else .ok (printed [Element.describe t])
  | none =>
    if o.json then writtenJson (some .null)
    else .ok (printed ["No element at line " ++ toString (place.line + 1) ++ ", column " ++
      toString (place.column + 1)])

/-- What is printed of a listing. -/
def showListing (o : Options) (entries : List Listing.Entry) : Except String String :=
  if o.json then writtenJson (some (Encoding.listing entries))
  else .ok (printed (entries.map entryLine))

/-- What is printed of an outline; of an empty one nothing, unless as JSON. -/
def showOutline (o : Options) (outline : Forest Outline.Symbol) : Except String String :=
  if o.json then writtenJson (Encoding.outline? outline)
  else if outline.isEmpty then .ok ""
  else .ok (printed [Outline.render 0 outline])

/-! ## Runs -/

/-- The session that answers for the given options. -/
def sessionFor (o : Options) : Session :=
  .new (if o.detect then .markup else .all) (some o.lineNumbers) (some false) (some o.strict) false

/-- The report on a reply, of which `present` prints the answer. -/
def reportOn {α : Type} (threshold : Int) (present : α → Except String String) (reply : Reply α) :
    Report :=
  let (output, errors) := match present reply.value with
    | .ok output => (output, reply.messages)
    | .error message => ("", reply.messages ++ [message])
  ⟨if errors = [] then 0 else 1, output, printed errors, Log.above threshold reply.records⟩

/-- Answers about the document that the options ask for. -/
def answer (threshold : Int) (o : Options) (d : Document) : Except Breakdown Report :=
  match o.place with
  | some (.position place) =>
    .ok (reportOn threshold (showElement o place) ((sessionFor o).elementAt Markup.read d place))
  | some .separator =>
    -- the look-up fails once the document has been read; as text there is no place to name
    let reader := Markup.breakingOff noPosition Markup.read
    let reply := (sessionFor o).elementAt reader d Position.origin
    if o.json then .ok (reportOn threshold (fun _ => writtenJson (some .null)) reply)
    else .error .noPlace
  | none =>
    if o.flat then .ok (reportOn threshold (showListing o) ((sessionFor o).listing Markup.read d))
    else .ok (reportOn threshold (showOutline o) ((sessionFor o).outline Markup.read false d))

/-- The report on a run that ended early with a message. -/
def refusal (code : Nat) (message : String) : Report :=
  ⟨code, "", message, []⟩

/-- Runs the command. `logLevel` is the setting for the log, `content` finds the content of the
files. -/
def run (logLevel : String) (content : String → FileContent) (words : List String) :
    Except Breakdown Report :=
  match readArguments words with
  | .error .help => .ok ⟨0, helpText, "", []⟩
  | .error (.fault f) => .ok (refusal 2 (usageError f))
  | .ok o =>
    let path := normalPath o.file
    match content path with
    | .absent => .ok (refusal 1 (printed ["File not found: " ++ path]))
    | .unreadable reason => .ok (refusal 1 (printed ["Cannot read " ++ path ++ ": " ++ reason]))
    | .bytes bs =>
      answer (Log.thresholdFor logLevel o.verbose o.debug) o ⟨path, none, 0, fileText bs⟩

end MarkupOutline.CommandLine
