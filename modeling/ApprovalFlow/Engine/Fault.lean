import ApprovalFlow.Engine.Basic

/-!
# Faults

An engine that fails on demand, to try out what happens then.

- `Request`: the sorts of requests.
- `Outage`: requests of one sort that will fail.
- `Faults.next`: does the next request of a sort fail?
- `Engine.withFaults`: an engine whose requests fail as planned.
-/

namespace ApprovalFlow

/-- A sort of requests to an engine. -/
inductive Request where
  | submit
  | definitionFor
  | listTasks
  | tasksAt
  | passTask
  | finishPending
  | closeBranch
  deriving DecidableEq, Repr

namespace Request

/-- All sorts. -/
def all : List Request :=
  [.submit, .definitionFor, .listTasks, .tasksAt, .passTask, .finishPending, .closeBranch]

/-- The written name of a sort. -/
def name : Request → String
  | .submit => "submit"
  | .definitionFor => "definition"
  | .listTasks => "listTasks"
  | .tasksAt => "tasksAtNode"
  | .passTask => "passTask"
  | .finishPending => "finishPending"
  | .closeBranch => "closeBranch"

/-- The sort with a written name. -/
def ofName? (s : String) : Option Request := all.find? fun r => r.name == s

end Request

/-- Requests of one sort: the next `skip` of them succeed, and the `count` after them fail. An
outage never passes unnoticed: at least one request fails, whatever the count. -/
structure Outage where
  request : Request
  skip : Nat
  count : Nat
  reason : String
  deriving DecidableEq, Repr

/-- Outages to come; those of one sort of requests take effect one after the other. -/
abbrev Faults := List Outage

namespace Faults

/-- Why the next request of a sort fails, if it does, and the outages after it. -/
def next (request : Request) : Faults → Option String × Faults
  | [] => (none, [])
  | o :: rest =>
    if o.request = request then
      match o.skip with
      | skip + 1 => (none, { o with skip := skip } :: rest)
      | 0 => (some o.reason, if o.count ≤ 1 then rest else { o with count := o.count - 1 } :: rest)
    else
      let (reason, rest) := next request rest
      (reason, o :: rest)

end Faults

/-- The state of an engine with outages to come. -/
structure Faulty (σ : Type) where
  inner : σ
  faults : Faults := []
  deriving DecidableEq

namespace Engine

variable {σ α : Type}

/-- A request that fails if an outage says so, and is passed on otherwise. -/
def guarded (request : Request) (act : EStateM FlowError σ α) : EStateM FlowError (Faulty σ) α :=
  fun s =>
    match Faults.next request s.faults with
    | (some reason, faults) => .error (.refused reason) { s with faults := faults }
    | (none, faults) =>
      match act s.inner with
      | .ok a inner => .ok a ⟨inner, faults⟩
      | .error e inner => .error e ⟨inner, faults⟩

/-- The engine whose requests fail as the outages say. -/
def withFaults (e : Engine σ) : Engine (Faulty σ) where
  submit d := guarded .submit (e.submit d)
  definitionFor instanceId := guarded .definitionFor (e.definitionFor instanceId)
  listTasks instanceId := guarded .listTasks (e.listTasks instanceId)
  tasksAt instanceId nodeId := guarded .tasksAt (e.tasksAt instanceId nodeId)
  passTask taskId comment := guarded .passTask (e.passTask taskId comment)
  finishPending instanceId nodeId batch status comment :=
    guarded .finishPending (e.finishPending instanceId nodeId batch status comment)
  closeBranch instanceId gateway predecessor outcome comment :=
    guarded .closeBranch (e.closeBranch instanceId gateway predecessor outcome comment)

end Engine

end ApprovalFlow
