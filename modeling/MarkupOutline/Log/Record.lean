/-!
# Log records

What the library reports while it works, apart from its answers. Two things live here:

* `Log.Record`, a message of some severity with named values, reported under a source;
* `Log.levelFor`, the threshold that a setting and the verbosity flags ask for, and
  `Log.thresholdFor`, the one that records then have to reach.
-/

namespace MarkupOutline.Log

/-- How much a record matters. -/
inductive Severity where
  | debug
  | info
  | warning
  | error
deriving DecidableEq, Repr

namespace Severity

/-- The name under which a severity is shown. -/
def name : Severity → String
  | debug => "DEBUG"
  | info => "INFO"
  | warning => "WARNING"
  | error => "ERROR"

/-- The number that a threshold is compared with. -/
def level : Severity → Int
  | debug => 10
  | info => 20
  | warning => 30
  | error => 40

end Severity

/-- A value that a record carries. -/
inductive Value where
  | text (s : String)
  | number (n : Int)
  | flag (b : Bool)
deriving DecidableEq, Repr

/-- A message with named values, in the order of their names. -/
structure Record where
  severity : Severity
  source : String
  message : String
  fields : List (String × Value)
deriving DecidableEq, Repr

/-- The records that a threshold lets through. -/
def above (threshold : Int) (records : List Record) : List Record :=
  records.filter fun r => threshold ≤ r.severity.level

/-! ## Thresholds -/

/-- The names by which a setting may ask for a threshold. -/
def levelNames : List (String × Int) :=
  [("CRITICAL", 50), ("FATAL", 50), ("ERROR", 40), ("WARNING", 30), ("WARN", 30), ("INFO", 20),
   ("DEBUG", 10), ("NOTSET", 0)]

/-- The threshold asked for: the verbosity flags come before the setting, and a setting that is no
name asks for warnings. -/
def levelFor (setting : String) (verbose debug : Bool) : Int :=
  if debug then Severity.debug.level
  else if verbose then Severity.info.level
  else (levelNames.lookup setting).getD Severity.warning.level

/-- The threshold that records then have to reach; the threshold 0 stands for none of one's own,
and warnings pass. -/
def thresholdFor (setting : String) (verbose debug : Bool) : Int :=
  match levelFor setting verbose debug with
  | 0 => Severity.warning.level
  | level => level

end MarkupOutline.Log
