import ApprovalFlow.CommandLine.Command

/-!
# The program

Reads the files that the arguments name, and prints what the command answers.
-/

namespace ApprovalFlow

/-- The content of a file, or nothing if it cannot be read. -/
def readFile? (path : String) : IO (Option ByteArray) := do
  try
    return some (← IO.FS.readBinFile path)
  catch _ =>
    return none

/-- The text for a call without arguments to run with. -/
def UsageError.text : UsageError → String
  | .missingDiagram => "error: the option --diagram is required"
  | .badValue => "error: an option has no value, or one that it does not take"
  | .unknownWord => "error: unexpected argument"
  | .repeated => "error: an option is given twice"
  | .unneededValue => "error: an option takes no value"
  | .helpWanted =>
    "Compile approval-flow diagrams into process definitions and deploy them.\n\n"
      ++ "Usage: approvalflow [OPTIONS] --diagram <PATH>"
  | .versionWanted => "approvalflow 0.1.0"

end ApprovalFlow

open ApprovalFlow in
def main (words : List String) : IO UInt32 := do
  match Arguments.parse words with
  | .error cause =>
    if cause = .helpWanted ∨ cause = .versionWanted then
      IO.println cause.text
      return 0
    IO.eprintln cause.text
    return 2
  | .ok arguments =>
    let settings ← readFile? arguments.settingsFile
    let diagram ← readFile? arguments.diagram
    match arguments.run settings diagram with
    | .ok answer =>
      IO.print answer
      return 0
    | .error cause =>
      IO.eprintln ("Error: " ++ (cause.message?.getD "the file is not well-formed"))
      return 1
