/-!
# Tasks

- `TaskStatus`: how a task stands, with the engine's code of each status.
- `Task`: a task of one approver at one node. All tasks that one pass through a node creates share
  a *batch*.
-/

namespace ApprovalFlow

/-- How a task stands. -/
inductive TaskStatus where
  | pending
  | passed
  | rejected
  /-- closed as passed by the system, not by an approver -/
  | systemPassed
  | revoked
  /-- closed as rejected by the system, not by an approver -/
  | systemRejected
  deriving DecidableEq, Repr

namespace TaskStatus

/-- The engine's code of a status. -/
def code : TaskStatus → Nat
  | .pending => 0
  | .passed => 1
  | .rejected => 2
  | .systemPassed => 3
  | .revoked => 4
  | .systemRejected => 5

/-- The status with a code. -/
def ofCode? : Nat → Option TaskStatus
  | 0 => some .pending
  | 1 => some .passed
  | 2 => some .rejected
  | 3 => some .systemPassed
  | 4 => some .revoked
  | 5 => some .systemRejected
  | _ => none

end TaskStatus

/-- A task as the host engine reports it. -/
structure Task where
  id : String
  instanceId : String
  nodeId : String
  /-- The pass through the node that created the task. -/
  batch : String
  userId : String
  status : TaskStatus
  finished : Bool
  /-- Must every task of the batch pass? -/
  cosigned : Bool
  comment : String
  deriving DecidableEq, Repr

namespace Task

/-- Did an approver pass the task? -/
def isPassed (t : Task) : Bool := t.finished && t.status == .passed

/-- Did an approver reject the task? -/
def isRejected (t : Task) : Bool := t.status == .rejected

end Task

end ApprovalFlow
