import ApprovalFlow.Json.Record
import ApprovalFlow.Task.Basic

/-!
# Tasks as documents

- `Task.toJson`: the document of a task.
- `Task.ofJson`: the task that a document holds.
-/

namespace ApprovalFlow

/-- The status whose code a document is. -/
def TaskStatus.ofJson (j : Json) : Except Json.Mismatch TaskStatus := do
  let code ← Json.readByte j
  match TaskStatus.ofCode? code with
  | some status => .ok status
  | none => .error (.unknownTaskStatus code)

namespace Task

/-- The layout of a task. -/
def layout : Json.Layout Task where
  name := "Task"
  fields := [
    Json.textField "taskId",
    Json.textField "procInstId",
    Json.textField "nodeId",
    Json.textField "batchCode",
    Json.textField "userId",
    ⟨"status", [], TaskStatus, TaskStatus.ofJson, none⟩,
    Json.optionalBool "isFinished",
    Json.optionalBool "isCosigned",
    Json.optionalText "comment"]
  build := fun (id, instanceId, nodeId, batch, userId, status, finished, cosigned, comment, ()) =>
    ⟨id, instanceId, nodeId, batch, userId, status, finished, cosigned, comment⟩

/-- The task that a document holds. -/
def ofJson (j : Json) : Except Json.Mismatch Task := layout.read j

/-- The document of a task. -/
def toJson (t : Task) : Json :=
  .object [
    ("taskId", .text t.id),
    ("procInstId", .text t.instanceId),
    ("nodeId", .text t.nodeId),
    ("batchCode", .text t.batch),
    ("userId", .text t.userId),
    ("status", .integer t.status.code),
    ("isFinished", .bool t.finished),
    ("isCosigned", .bool t.cosigned),
    ("comment", .text t.comment)]

end Task

end ApprovalFlow
