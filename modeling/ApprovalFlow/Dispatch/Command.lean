import ApprovalFlow.EventName
import ApprovalFlow.Task.Format

/-!
# Events and commands

- `EngineEvent`: what the host engine reports.
- `Command`: what is done about it.
- `BranchOutcome`: how the system closes a branch of a gateway.
- `HookEvent`: an event that is handed on to whoever attached an effect to it.
-/

namespace ApprovalFlow

/-- What the host engine reports. -/
inductive EngineEvent where
  | nodeStarted (instanceId nodeId : String) (event : EventName)
  | nodeEnded (instanceId nodeId : String) (event : EventName)
  | taskFinished (event : EventName) (task : Task)
  deriving DecidableEq, Repr

namespace EngineEvent

/-- The instance that the event is about. -/
def instanceId : EngineEvent → String
  | .nodeStarted i _ _ => i
  | .nodeEnded i _ _ => i
  | .taskFinished _ t => t.instanceId

/-- The node that the event is about. -/
def nodeId : EngineEvent → String
  | .nodeStarted _ n _ => n
  | .nodeEnded _ n _ => n
  | .taskFinished _ t => t.nodeId

/-- The name of the event. -/
def name : EngineEvent → EventName
  | .nodeStarted _ _ e => e
  | .nodeEnded _ _ e => e
  | .taskFinished e _ => e

end EngineEvent

/-- How the system closes a branch. -/
inductive BranchOutcome where
  | passed
  | rejected
  deriving DecidableEq, Repr

namespace BranchOutcome

/-- The written name of an outcome. -/
def name : BranchOutcome → String
  | .passed => "system-passed"
  | .rejected => "system-rejected"

/-- The outcome with a written name. -/
def ofName? (s : String) : Option BranchOutcome :=
  [passed, rejected].find? fun o => o.name == s

/-- The status of the pending tasks that are closed with the branch. -/
def taskStatus : BranchOutcome → TaskStatus
  | .passed => .systemPassed
  | .rejected => .systemRejected

end BranchOutcome

/-- An event handed on, with the task if it is about one. -/
structure HookEvent where
  event : EventName
  instanceId : String
  nodeId : String
  task : Option Task
  deriving DecidableEq, Repr

/-- The document of an event handed on. -/
def HookEvent.toJson (h : HookEvent) : Json :=
  .object [
    ("event", .text h.event.text),
    ("procInstId", .text h.instanceId),
    ("nodeId", .text h.nodeId),
    ("task", .ofOption Task.toJson h.task)]

/-- What is done about an event. -/
inductive Command where
  /-- the gateway waits no longer for the branch that ends at the node `predecessor` -/
  | closeBranch (gateway predecessor : String) (outcome : BranchOutcome) (comment : String)
  /-- every unfinished task at the node gets the status: those of one batch, or all -/
  | finishPending (node : String) (batch : Option String) (status : TaskStatus) (comment : String)
  /-- the task of a system node is passed once it appears -/
  | spawnAutoPass (node : String)
  /-- the event is handed on -/
  | forward (event : HookEvent)
  deriving DecidableEq, Repr

/-- The document of a command. -/
def Command.toJson : Command → Json
  | .closeBranch gateway predecessor outcome comment =>
    .object [
      ("cmd", .text "closeBranch"),
      ("gatewayId", .text gateway),
      ("predecessorId", .text predecessor),
      ("outcome", .text outcome.name),
      ("comment", .text comment)]
  | .finishPending node batch status comment =>
    .object [
      ("cmd", .text "finishPendingTasks"),
      ("nodeId", .text node),
      ("batchCode", .ofOption .text batch),
      ("status", .integer status.code),
      ("comment", .text comment)]
  | .spawnAutoPass node =>
    .object [("cmd", .text "spawnAutoPass"), ("nodeId", .text node)]
  | .forward h =>
    .object [
      ("cmd", .text "forward"),
      ("event", .text h.event.text),
      ("procInstId", .text h.instanceId),
      ("nodeId", .text h.nodeId),
      ("task", .ofOption Task.toJson h.task)]

end ApprovalFlow
