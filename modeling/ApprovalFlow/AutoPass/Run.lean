import ApprovalFlow.Engine.Basic
import ApprovalFlow.Settings.Basic

/-!
# Auto-pass runs

When a node of the system starts, the engine creates its task a little later. A run waits for that
task and passes it: it looks at the node at once and then at fixed intervals, the last time when its
time is up.

- `RunStatus`: how a run stands, with the wording.
- `Run`: a run, with the instant of its next look.
- `look`: one look at a node.
- `Run.visit`: what a run does at an instant.
-/

namespace ApprovalFlow

/-- How a run stands. -/
inductive RunStatus where
  /-- no task was seen yet -/
  | pending
  /-- the task was passed -/
  | completed (taskId : String)
  | timedOut
  /-- the task was seen, but the engine did not pass it -/
  | failed (cause : FlowError)
  /-- stopped from outside -/
  | cancelled
  deriving DecidableEq, Repr

namespace RunStatus

/-- Is the run over? -/
def isTerminal : RunStatus → Bool
  | .pending => false
  | .completed _ | .timedOut | .failed _ | .cancelled => true

/-- The wording of a status. -/
def text : RunStatus → String
  | .pending => "pending"
  | .completed taskId => "completed (" ++ taskId ++ ")"
  | .timedOut => "timed out"
  | .failed cause => "failed: " ++ cause.message?.getD ""
  | .cancelled => "failed: auto-pass task ended unexpectedly"

end RunStatus

/-- A run for the tasks of an instance at a node. Instants are in milliseconds. -/
structure Run where
  instanceId : String
  nodeId : String
  /-- When the run looks at the node next. -/
  nextLook : Nat
  /-- When its time is up. -/
  deadline : Nat
  status : RunStatus := .pending
  deriving DecidableEq, Repr

namespace Run

/-- A run that begins at an instant. -/
def start (options : AutoPassOptions) (instanceId nodeId : String) (now : Nat) : Run :=
  ⟨instanceId, nodeId, now, now + options.timeout.millis, .pending⟩

/-- The next instant at which the run does something; a run that is over does nothing. -/
def nextInstant? (r : Run) : Option Nat :=
  if r.status.isTerminal then none else some (min r.nextLook r.deadline)

end Run

/-- Look at a node, and pass its first unfinished task if there is one. Finished tasks belong to
earlier passes through the node. A look that the engine does not answer is as if there were no
task. -/
def look {σ : Type} (e : Engine σ) (comment instanceId nodeId : String) (s : σ) : RunStatus × σ :=
  match e.tasksAt instanceId nodeId s with
  | .error _ s => (.pending, s)
  | .ok tasks s =>
    match tasks.find? fun t => !t.finished with
    | none => (.pending, s)
    | some task =>
      match e.passTask task.id comment s with
      | .ok () s => (.completed task.id, s)
      | .error cause s => (.failed cause, s)

namespace Run

variable {σ : Type}

/-- What a run does at the instant `now`: it looks if a look is due, and gives up if its time is up
and the look did not end it. -/
def visit (e : Engine σ) (options : AutoPassOptions) (now : Nat) (r : Run) (s : σ) : Run × σ :=
  if r.status.isTerminal then (r, s)
  else
    let (status, next, s) :=
      if r.nextLook ≤ now then
        let (status, s) := look e options.comment r.instanceId r.nodeId s
        (status, now + max 1 options.pollInterval.millis, s)
      else (.pending, r.nextLook, s)
    let status := if status = .pending ∧ r.deadline ≤ now then .timedOut else status
    ({ r with status := status, nextLook := next }, s)

/-- What runs do at an instant, one after the other. -/
def visitAll (e : Engine σ) (options : AutoPassOptions) (now : Nat) : List Run → σ → List Run × σ
  | [], s => ([], s)
  | r :: rest, s =>
    let (r, s) := r.visit e options now s
    let (rest, s) := visitAll e options now rest s
    (r :: rest, s)

end Run

end ApprovalFlow
