/-!
# Event names

The names under which the host engine reports what happens in a process. A node of a process
definition subscribes to events by these texts.

- `EventName`: the events.
- `EventName.text`, `EventName.ofText?`: their texts, each the inverse of the other.
-/

namespace ApprovalFlow

/-- An event of the host engine. -/
inductive EventName where
  /-- a task finished at a node in front of a parallel gateway -/
  | taskParallelPass
  /-- a task finished at a node in front of an inclusion gateway -/
  | taskInclusionPass
  /-- a task was rejected behind a condition and then a concurrent gateway -/
  | concurrentRejectCleanup
  /-- a task was rejected behind a concurrent gateway and then a condition -/
  | gatewayConditionReject
  | taskNodeStart
  | taskNodeEnd
  | automationStart
  | notify
  | notifyCC
  | processEnd
  deriving DecidableEq, Repr

namespace EventName

/-- All events. -/
def all : List EventName :=
  [.taskParallelPass, .taskInclusionPass, .concurrentRejectCleanup, .gatewayConditionReject,
   .taskNodeStart, .taskNodeEnd, .automationStart, .notify, .notifyCC, .processEnd]

/-- The text of an event. -/
def text : EventName → String
  | .taskParallelPass => "EventTaskParallelNodePass"
  | .taskInclusionPass => "EventTaskInclusionNodePass"
  | .concurrentRejectCleanup => "EventConcurrentRejectCleanup"
  | .gatewayConditionReject => "EventGatewayConditionReject"
  | .taskNodeStart => "EventTaskNodeStart"
  | .taskNodeEnd => "EventTaskNodeEnd"
  | .automationStart => "EventAutomationStart"
  | .notify => "EventNotify"
  | .notifyCC => "EventNotifyCC"
  | .processEnd => "EventProcessEnd"

/-- The event with a text. -/
def ofText? (s : String) : Option EventName := all.find? fun e => e.text == s

/-- The wording for a text that names no event. -/
def unknownMessage (s : String) : String := "unknown engine event '" ++ s ++ "'"

theorem ofText?_text (e : EventName) : ofText? e.text = some e := by
  cases e <;> decide

end EventName

end ApprovalFlow
