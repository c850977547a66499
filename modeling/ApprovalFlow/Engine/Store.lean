import ApprovalFlow.Engine.Basic

/-!
# An engine in memory

An engine that stores definitions, instances and tasks and records every branch that is closed. It
runs nothing by itself: tasks are created and decided by its callers.

- `Store`: its state.
- `Store.submit`, `Store.startInstance`, `Store.createTask`, `Store.insertTask`,
  `Store.completeTask`, `Store.passTask`, `Store.finishPending`, `Store.closeBranch`: what changes
  it.
- `Store.engine`: the requests to it.
-/

namespace ApprovalFlow

/-- A branch that was closed. -/
structure ClosedBranch where
  instanceId : String
  gateway : String
  predecessor : String
  outcome : BranchOutcome
  comment : String
  deriving DecidableEq, Repr

/-- The document of a branch that was closed. -/
def ClosedBranch.toJson (b : ClosedBranch) : Json :=
  .object [
    ("procInstId", .text b.instanceId),
    ("gatewayId", .text b.gateway),
    ("predecessorId", .text b.predecessor),
    ("outcome", .text b.outcome.name),
    ("comment", .text b.comment)]

/-- The state of an engine in memory. -/
structure Store where
  /-- The definitions by process id. -/
  definitions : SortedMap String ProcessDefinition := {}
  /-- The process id of each instance. -/
  instances : SortedMap String String := {}
  /-- The tasks, oldest first. -/
  tasks : List Task := []
  /-- The branches that were closed, oldest first; one that is closed twice is there twice. -/
  closed : List ClosedBranch := []
  /-- How many definitions, instances and tasks got their ids here. -/
  processCount : Nat := 0
  instanceCount : Nat := 0
  taskCount : Nat := 0
  /-- Why definitions are refused, if they are. -/
  submissionFailure : Option String := none
  deriving DecidableEq

namespace Task

/-- Change the first task with the id; the changed task and the list with it. -/
def alterFirst (id : String) (f : Task → Task) : List Task → Option (Task × List Task)
  | [] => none
  | t :: rest =>
    if t.id = id then some (f t, f t :: rest)
    else (alterFirst id f rest).map fun (u, l) => (u, t :: l)

/-- The task as passed; one that is finished stays as it is. -/
def pass (comment : String) (t : Task) : Task :=
  if t.finished then t else { t with status := .passed, finished := true, comment := comment }

/-- The task with a decision. Back to pending it is open again. -/
def complete (status : TaskStatus) (comment : String) (t : Task) : Task :=
  { t with status := status, finished := status != .pending, comment := comment }

end Task

namespace Store

/-! ## Definitions and instances -/

/-- Refuse every definition from now on. -/
def failSubmissions (s : Store) (reason : String) : Store :=
  { s with submissionFailure := some reason }

/-- Store a definition under the next process id. -/
def submit (s : Store) (d : ProcessDefinition) : Except FlowError (String × Store) :=
  match s.submissionFailure with
  | some reason => .error (.refused reason)
  | none =>
    let id := "proc-" ++ toString (s.processCount + 1)
    .ok (id, { s with
      definitions := s.definitions.insert id d
      processCount := s.processCount + 1 })

/-- The definition of a process. -/
def definition? (s : Store) (processId : String) : Option ProcessDefinition :=
  s.definitions.find? processId

/-- Start an instance of a process under the next instance id. -/
def startInstance (s : Store) (processId : String) : Except FlowError (String × Store) :=
  if s.definitions.contains processId then
    let id := "inst-" ++ toString (s.instanceCount + 1)
    .ok (id, { s with
      instances := s.instances.insert id processId
      instanceCount := s.instanceCount + 1 })
  else .error (.unknownProcess processId)

/-- The definition that an instance runs. -/
def definitionFor? (s : Store) (instanceId : String) : Option ProcessDefinition :=
  (s.instances.find? instanceId).bind s.definition?

/-! ## Tasks -/

/-- Create a pending task under the next task id. -/
def createTask (s : Store) (instanceId nodeId batch userId : String) (cosigned : Bool) :
    Task × Store :=
  let task : Task :=
    { id := "task-" ++ toString (s.taskCount + 1), instanceId, nodeId, batch, userId
      status := .pending, finished := false, cosigned, comment := "" }
  (task, { s with tasks := s.tasks ++ [task], taskCount := s.taskCount + 1 })

/-- Store a task as the last one, in place of all with its id. -/
def insertTask (s : Store) (t : Task) : Store :=
  { s with tasks := s.tasks.filter (fun u => u.id != t.id) ++ [t] }

/-- The first task with the id. -/
def task? (s : Store) (id : String) : Option Task := s.tasks.find? fun t => t.id == id

/-- Record an approver's decision on a task. -/
def completeTask (s : Store) (id : String) (status : TaskStatus) (comment : String) :
    Except FlowError (Task × Store) :=
  match Task.alterFirst id (Task.complete status comment) s.tasks with
  | some (task, tasks) => .ok (task, { s with tasks := tasks })
  | none => .error (.taskNotFound id)

/-- The tasks of an instance. -/
def tasksOf (s : Store) (instanceId : String) : List Task :=
  s.tasks.filter fun t => t.instanceId == instanceId

/-- The tasks of an instance at a node. -/
def tasksAt (s : Store) (instanceId nodeId : String) : List Task :=
  s.tasks.filter fun t => t.instanceId == instanceId && t.nodeId == nodeId

/-- Pass a task. -/
def passTask (s : Store) (id comment : String) : Except FlowError Store :=
  match Task.alterFirst id (Task.pass comment) s.tasks with
  | some (_, tasks) => .ok { s with tasks := tasks }
  | none => .error (.taskNotFound id)

/-- Is the task an unfinished one at the node, and of the batch if one is given? -/
def isOpenAt (instanceId nodeId : String) (batch : Option String) (t : Task) : Bool :=
  t.instanceId == instanceId && t.nodeId == nodeId && !t.finished
    && (batch.isNone || batch == some t.batch)

/-- Give every unfinished task at a node the status: those of one batch, or all. -/
def finishPending (s : Store) (instanceId nodeId : String) (batch : Option String)
    (status : TaskStatus) (comment : String) : Nat × Store :=
  (s.tasks.countP (isOpenAt instanceId nodeId batch),
    { s with tasks := s.tasks.map fun t =>
        if isOpenAt instanceId nodeId batch t then
          { t with status := status, finished := true, comment := comment }
        else t })

/-- Record that a branch was closed. -/
def closeBranch (s : Store) (instanceId gateway predecessor : String) (outcome : BranchOutcome)
    (comment : String) : Store :=
  { s with closed := s.closed ++ [⟨instanceId, gateway, predecessor, outcome, comment⟩] }

/-! ## Requests -/

/-- The requests to an engine in memory. -/
def engine : Engine Store where
  submit d := fun s =>
    match s.submit d with
    | .ok (id, s) => .ok id s
    | .error e => .error e s
  definitionFor instanceId := fun s =>
    match s.definitionFor? instanceId with
    | some d => .ok d s
    | none => .error (.instanceNotFound instanceId) s
  listTasks instanceId := fun s => .ok (s.tasksOf instanceId) s
  tasksAt instanceId nodeId := fun s => .ok (s.tasksAt instanceId nodeId) s
  passTask taskId comment := fun s =>
    match s.passTask taskId comment with
    | .ok s => .ok () s
    | .error e => .error e s
  finishPending instanceId nodeId batch status comment := fun s =>
    let (count, s) := s.finishPending instanceId nodeId batch status comment
    .ok count s
  closeBranch instanceId gateway predecessor outcome comment := fun s =>
    .ok () (s.closeBranch instanceId gateway predecessor outcome comment)

end Store

end ApprovalFlow
