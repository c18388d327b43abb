import MarkupOutline.Text.Blank
import MarkupOutline.Text.Case
import MarkupOutline.Text.Integer
import MarkupOutline.Text.Quoted

/-!
# Settings

Settings come from an environment of named texts; a name that is not there leaves the default.
-/

namespace MarkupOutline.Settings

/-- The text of a name, if the environment has it. -/
abbrev Environment := String → Option String

/-- A setting that should be an integer and is not. -/
structure NotInteger where
  text : String
deriving DecidableEq, Repr

/-- The wording of a setting that is no integer. -/
def NotInteger.message (e : NotInteger) : String :=
  "invalid literal for int() with base 10: " ++ Text.quoted e.text

/-- The words that switch a setting on. -/
def onWords : List String :=
  ["1", "true", "yes", "on"]

/-- A switch; blanks around its text and the case of the letters do not matter. -/
def switch (env : Environment) (name : String) (default : Bool) : Bool :=
  match env name with
  | none => default
  | some s => onWords.contains (String.ofList (Text.lower (Text.trim s.toList)))

/-- An integer setting. -/
def integer (env : Environment) (name : String) (default : Int) : Except NotInteger Int :=
  match env name with
  | none => .ok default
  | some s =>
    match Text.readInteger? s.toList with
    | some n => .ok n
    | none => .error ⟨s⟩

/-! ## The settings of the library -/

/-- What the library does unless it is told otherwise. -/
structure Core where
  lineNumbers : Bool
  cacheEnabled : Bool
  strict : Bool
  logLevel : String
deriving DecidableEq, Repr

namespace Core

/-- The settings of an empty environment. -/
def default : Core :=
  ⟨false, true, false, "WARNING"⟩

/-- Reads the settings of the library. -/
def read (env : Environment) : Core where
  lineNumbers := switch env "AXAML_OUTLINE_SHOW_LINE_NUMBERS" default.lineNumbers
  cacheEnabled := switch env "AXAML_OUTLINE_CACHE_ENABLED" default.cacheEnabled
  strict := switch env "AXAML_OUTLINE_STRICT_TAGS" default.strict
  logLevel :=
    String.ofList (Text.upper ((env "AXAML_OUTLINE_LOG_LEVEL").getD default.logLevel).toList)

end Core

/-! ## The settings of the service -/

/-- Where the service listens, the largest document it takes, and whether it restarts when its
files change. -/
structure Service where
  maxDocumentKb : Int
  host : String
  tcpPort : Int
  reload : Bool
deriving DecidableEq, Repr

namespace Service

/-- The settings of an empty environment. -/
def default : Service :=
  ⟨2048, "127.0.0.1", 8000, false⟩

/-- The words that switch restarting on, in small letters and without blanks. -/
def reloadWords : List String :=
  ["1", "true", "yes"]

/-- Reads the settings of the service; the size is looked at first. -/
def read (env : Environment) : Except NotInteger Service := do
  let maxDocumentKb ← integer env "MAX_DOCUMENT_SIZE_KB" default.maxDocumentKb
  let tcpPort ← integer env "PORT" default.tcpPort
  let reload := match env "RELOAD" with
    | none => default.reload
    | some s => reloadWords.contains (String.ofList (Text.lower s.toList))
  return ⟨maxDocumentKb, (env "HOST").getD default.host, tcpPort, reload⟩

end Service

end MarkupOutline.Settings
