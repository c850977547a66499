import ApprovalFlow.Definition.Basic
import ApprovalFlow.Dispatch.Command
import ApprovalFlow.Error

/-!
# Host engines

The engine that runs processes is known only by what can be asked of it.

- `Engine σ`: the requests to an engine whose state is `σ`. Every request may fail, and may change
  the state even then.
-/

namespace ApprovalFlow

/-- The requests to a host engine with states in `σ`. -/
structure Engine (σ : Type) where
  /-- Take over a definition; the answer is its process id. -/
  submit : ProcessDefinition → EStateM FlowError σ String
  /-- The definition that an instance runs. -/
  definitionFor : (instanceId : String) → EStateM FlowError σ ProcessDefinition
  /-- Every task of an instance. -/
  listTasks : (instanceId : String) → EStateM FlowError σ (List Task)
  /-- The tasks of an instance at one node. -/
  tasksAt : (instanceId nodeId : String) → EStateM FlowError σ (List Task)
  /-- Pass a task. -/
  passTask : (taskId comment : String) → EStateM FlowError σ Unit
  /-- Give every unfinished task at a node the status: those of one batch, or all. The answer is
  their number. -/
  finishPending : (instanceId nodeId : String) → (batch : Option String) → TaskStatus →
    (comment : String) → EStateM FlowError σ Nat
  /-- A gateway waits no longer for the branch that ends at the predecessor. -/
  closeBranch : (instanceId gateway predecessor : String) → BranchOutcome → (comment : String) →
    EStateM FlowError σ Unit

end ApprovalFlow
