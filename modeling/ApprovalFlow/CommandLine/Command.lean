import ApprovalFlow.CommandLine.Arguments
import ApprovalFlow.Definition.Format
import ApprovalFlow.Engine.Deploy
import ApprovalFlow.Engine.Store
import ApprovalFlow.Json.Printer
import ApprovalFlow.Settings.File

/-!
# The command

- `CommandError`: why the command fails.
- `Arguments.run`: what the command prints, given the contents of the files that it reads.
-/

namespace ApprovalFlow

/-- Why the command fails. -/
inductive CommandError where
  | flow (cause : FlowError)
  /-- the file of the diagram is not there, or does not hold text -/
  | unreadableDiagram (path : String)
  deriving DecidableEq, Repr

/-- The wording of a failure. -/
def CommandError.message? : CommandError → Option String
  | .flow cause => cause.message?
  | .unreadableDiagram path => some ("reading diagram " ++ path)

namespace Arguments

/-- The settings file that the arguments lead to. -/
def settingsFile (a : Arguments) : String := a.config.getD Settings.fileName

/-- The settings. A file that is named must be there. -/
def settings (a : Arguments) (file : Option ByteArray) : Except FlowError Settings :=
  if a.config.isSome then Settings.ofFile file else Settings.ofFileOrStandard file

/-- What is printed for the text of a diagram: its definition, or the id of the process under which
an engine in memory takes it over. -/
def answer (a : Arguments) (options : CompilerOptions) (text : String) : Except FlowError String :=
  if a.dryRun then do
    let d ← Diagram.ofText options.unknownNodes text
    let definition ← d.compile options a.processName
    .ok definition.toJson.renderIndented
  else
    match Store.engine.deployText options a.processName text {} with
    | .ok processId _ => .ok processId
    | .error cause _ => .error cause

/-- What the command prints, for the contents of the settings file and of the diagram's file. -/
def run (a : Arguments) (settingsFile diagramFile : Option ByteArray) :
    Except CommandError String := do
  let settings ← (a.settings settingsFile).mapError .flow
  match diagramFile.bind String.fromUTF8? with
  | none => .error (.unreadableDiagram a.diagram)
  | some text => ((a.answer settings.compiler text).mapError .flow).map (· ++ "\n")

end Arguments

end ApprovalFlow
