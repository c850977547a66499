import ApprovalFlow.Diagram.Kind
import ApprovalFlow.Settings.Duration

/-!
# Settings

- `CompilerOptions`: how diagrams become process definitions.
- `AutoPassOptions`: how tasks at system nodes are passed.
- `DispatchOptions`: what the dispatcher writes on what it closes.
- `Settings`: all of them. The standard settings hold where nothing else is said.
-/

namespace ApprovalFlow

/-- How diagrams become process definitions. -/
structure CompilerOptions where
  /-- Written into branches of a condition whose edge carries no expression. -/
  defaultExpression : String := "1 == 1"
  /-- What is done with nodes of no known kind. -/
  unknownNodes : UnknownNodePolicy := .standard
  deriving DecidableEq, Repr

/-- How tasks at system nodes are passed. -/
structure AutoPassOptions where
  /-- How long a run waits for a task. -/
  timeout : Duration := .ofSecs 10
  /-- The time from one look at the node to the next. -/
  pollInterval : Duration := ⟨500⟩
  /-- The comment on a task that was passed. -/
  comment : String := "system auto pass"
  deriving DecidableEq, Repr

/-- What the dispatcher writes on what it closes. -/
structure DispatchOptions where
  /-- The comment on branches closed as passed. -/
  passComment : String := "closed by system: branch approved"
  /-- The comment on branches closed as rejected. -/
  rejectComment : String := "closed by system: branch rejected"
  /-- The comment on branches closed because a sibling was rejected. -/
  cleanupComment : String := "closed by system: sibling branch rejected"
  /-- How many events may wait for the dispatcher. -/
  eventBuffer : Nat := 64
  deriving DecidableEq, Repr

/-- All settings. -/
structure Settings where
  compiler : CompilerOptions := {}
  autoPass : AutoPassOptions := {}
  dispatch : DispatchOptions := {}
  deriving DecidableEq, Repr

end ApprovalFlow
