import ApprovalFlow.Json.Mismatch
import ApprovalFlow.Settings.Checked

/-!
# Errors

- `FlowError`: why reading, compiling, deploying or handling an event fails.
- `FlowError.message`: the wording, for all causes that have one.
-/

namespace ApprovalFlow

/-- Why an operation fails. -/
inductive FlowError where
  /-- settings that are refused -/
  | settings (cause : SettingsError)
  /-- the text of a diagram is no document -/
  | notADocument
  /-- the document of a diagram has another shape -/
  | diagramShape (fromText : Bool) (cause : Json.Mismatch)
  /-- the properties of a node or an edge have another shape -/
  | properties (owner kind : String) (cause : Json.Mismatch)
  /-- the properties of a node are those of a node of another kind -/
  | foreignProperties (node kind : String)
  /-- a node of no known kind -/
  | unknownNodeType (node type : String)
  /-- the host engine refuses -/
  | refused (reason : String)
  /-- no process is deployed under the id -/
  | unknownProcess (id : String)
  | taskNotFound (id : String)
  | instanceNotFound (id : String)
  /-- there is no such file -/
  | noSuchFile
  /-- a file does not hold text -/
  | notUtf8
  /-- a file of settings is not well-formed, or gives what no settings are -/
  | badSettingsFile
  /-- a document has another shape -/
  | shape (cause : Json.Mismatch)
  deriving DecidableEq, Repr

namespace FlowError

/-- How an error about a node's properties starts. -/
def misfit (owner kind : String) : String :=
  "Node '" ++ owner ++ "' has properties that do not fit a " ++ kind ++ " node: "

/-- The wording of an error; nothing for files that are not well-formed. -/
def message? : FlowError → Option String
  | .settings cause => some ("Configuration error: " ++ cause.message)
  | .notADocument => none
  | .diagramShape fromText cause => some ("Failed to decode diagram: " ++ cause.message fromText)
  | .properties owner kind cause => some (misfit owner kind ++ cause.message false)
  | .foreignProperties node kind =>
    some (misfit node kind ++ "decoded properties belong to a different node kind")
  | .unknownNodeType node type =>
    some ("Node '" ++ node ++ "' has an unrecognised type '" ++ type ++ "'")
  | .refused reason => some ("Process engine error: " ++ reason)
  | .unknownProcess id =>
    some ("Process engine error: unknown process definition '" ++ id ++ "'")
  | .taskNotFound id => some ("Task not found: " ++ id)
  | .instanceNotFound id => some ("Process instance not found: " ++ id)
  | .noSuchFile => some "IO error: No such file or directory (os error 2)"
  | .notUtf8 => some "IO error: stream did not contain valid UTF-8"
  | .badSettingsFile => none
  | .shape cause => some ("JSON error: " ++ cause.message false)

end FlowError

end ApprovalFlow
