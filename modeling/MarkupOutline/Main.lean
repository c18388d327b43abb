import MarkupOutline.CommandLine.Run

/-!
# The program

Runs the command on the files of the system and prints its report.
-/

open MarkupOutline

/-- Reads the file under a path. -/
def readFile (path : String) : IO CommandLine.FileContent := do
  try
    let bytes ← IO.FS.readBinFile path
    return .bytes bytes.toList
  catch
    | .noFileOrDirectory .. => return .absent
    | .inappropriateType .. => return .absent
    | e => return .unreadable (toString e)

/-- The file that a command line names, if it is one that can be run. -/
def namedFile? (words : List String) : Option String :=
  match CommandLine.readArguments words with
  | .ok o => some (CommandLine.normalPath o.file)
  | .error _ => none

/-- A log record as a line. -/
def recordLine (r : Log.Record) : String :=
  r.severity.name ++ " " ++ r.source ++ ": " ++ r.message

/-- Runs the command. -/
def main (words : List String) : IO UInt32 := do
  let level ← IO.getEnv "AXAML_OUTLINE_LOG_LEVEL"
  let settings := Settings.Core.read fun name =>
    if name = "AXAML_OUTLINE_LOG_LEVEL" then level else none
  let content ← match namedFile? words with
    | some path => readFile path
    | none => pure .absent
  match CommandLine.run settings.logLevel (fun _ => content) words with
  | .ok report =>
    for record in report.records do
      IO.eprintln (recordLine record)
    IO.print report.output
    IO.eprint report.errors
    return report.code.toUInt32
  | .error breakdown =>
    IO.eprintln breakdown.message
    return 1
