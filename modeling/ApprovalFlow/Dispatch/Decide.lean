import ApprovalFlow.Dispatch.Command
import ApprovalFlow.Settings.Basic
import ApprovalFlow.Task.Ledger

/-!
# Decisions

What is done about an event of the host engine, as a function of the event, the nodes of the
instance's definition and its tasks at the time.

- `Snapshot`: the nodes and tasks that a decision looks at.
- `commandsFor`: the decision, by one function for each group of events.
- `Snapshot.joinsAfter`, `Snapshot.branchHeads`, `Snapshot.parents`: how nodes are found.

A task that finishes in front of a parallel or inclusion gateway may close its branch there. A task
that is rejected on a branch of such a gateway may close the branches beside it.
-/

namespace ApprovalFlow

/-- What a decision looks at. -/
structure Snapshot where
  nodes : NodeTable
  tasks : List Task
  ledger : Ledger
  deriving DecidableEq

namespace Snapshot

/-- The snapshot of nodes and tasks. -/
def ofParts (nodes : NodeTable) (tasks : List Task) : Snapshot :=
  ⟨nodes, tasks, .ofTasks nodes tasks⟩

/-- The snapshot's copy of a task, or the task itself if there is none. -/
def current (s : Snapshot) (t : Task) : Task := (s.tasks.find? fun u => u.id == t.id).getD t

/-! ## Finding nodes -/

/-- The ids, ascending, of the nodes that have the node among their predecessors. -/
def branchHeads (s : Snapshot) (id : String) : List String :=
  (s.nodes.values.filter fun n => n.predecessorIds.contains id).map (·.id)

/-- The ids, ascending, of the parallel and inclusion gateways after a node; if a policy is given,
of those that join by it. -/
def joinsAfter (s : Snapshot) (id : String) (policy : Option JoinPolicy) : List String :=
  (s.nodes.values.filter fun n =>
    n.isConcurrentJoin && (policy.isNone || n.joinPolicy? == policy)
      && n.predecessorIds.contains id).map (·.id)

/-- The nodes before a node, in the order of its predecessors. -/
def parents (s : Snapshot) (id : String) : List ProcessNode :=
  match s.nodes.find? id with
  | some n => n.predecessorIds.filterMap s.nodes.find?
  | none => []

/-- The first parallel or inclusion gateway right before a node. -/
def concurrentParent? (s : Snapshot) (id : String) : Option String :=
  ((s.parents id).find? (·.isConcurrentJoin)).map (·.id)

/-- The gateway whose branches a rejected task closes, and the head of the task's own branch: the
gateway right before the node, or, for a condition behind a gateway, the one before the condition. -/
def rejectedBranch? (s : Snapshot) (event : EventName) (id : String) : Option (String × String) :=
  match event with
  | .gatewayConditionReject =>
    ((s.parents id).filter fun p => p.type == .gateway && !p.isConcurrentJoin).findSome? fun c =>
      (s.concurrentParent? c.id).map fun g => (g, c.id)
  | _ => (s.concurrentParent? id).map fun g => (g, id)

end Snapshot

/-! ## Closing a branch -/

/-- Close the branch of a task's batch at some gateways, and its pending tasks if there are any. -/
def closeBatch (t : Task) (gateways : List String) (outcome : BranchOutcome) (comment : String)
    (pending : Nat) : List Command :=
  gateways.map (fun g => .closeBranch g t.nodeId outcome comment)
    ++ if 0 < pending then
      [.finishPending t.nodeId (some t.batch) outcome.taskStatus comment]
    else []

/-- A task finished in front of gateways that join by the policy. Nothing is done if there is no
such gateway or if another batch of the node is open. A rejected task in the batch closes the branch
as rejected; else `settled` says whether it is closed as passed. -/
def decidePass (policy : JoinPolicy) (settled : Tally → Bool) (t : Task) (s : Snapshot)
    (o : DispatchOptions) : List Command :=
  let gateways := s.joinsAfter t.nodeId (some policy)
  let tally := s.ledger.tally t.nodeId t.batch
  if gateways.isEmpty then []
  else if s.ledger.hasOtherPending t.nodeId t.batch then []
  else if 0 < tally.rejected then
    closeBatch t gateways .rejected o.rejectComment tally.pending
  else if settled tally then
    closeBatch t gateways .passed o.passComment tally.pending
  else []

/-- In front of parallel gateways a passed task closes the branch, but where everybody must agree
only if no task is pending. -/
def decideParallelPass (t : Task) (s : Snapshot) (o : DispatchOptions) : List Command :=
  decidePass .waitAll (fun tally =>
    t.isPassed && (!(t.cosigned || s.ledger.isCosigned t.nodeId) || tally.pending == 0)) t s o

/-- In front of inclusion gateways a task closes the branch if it settles its batch. -/
def decideInclusionPass (t : Task) (s : Snapshot) (o : DispatchOptions) : List Command :=
  decidePass .onArrival (fun _ => s.ledger.isSettledBy t) t s o

/-! ## Closing the branches beside a rejected one -/

/-- Close the branch that starts at a node: its tasks, and the node at every gateway after it. -/
def closeSibling (s : Snapshot) (o : DispatchOptions) (head : String) : List Command :=
  .finishPending head none .systemRejected o.cleanupComment
    :: (s.joinsAfter head none).map fun g =>
      .closeBranch g head .rejected o.cleanupComment

/-- A rejected task closes the branches of its gateway other than its own. -/
def decideRejectCleanup (event : EventName) (t : Task) (s : Snapshot) (o : DispatchOptions) :
    List Command :=
  if t.isRejected then
    match s.rejectedBranch? event t.nodeId with
    | some (gateway, own) =>
      ((s.branchHeads gateway).filter fun h => h != own).flatMap (closeSibling s o)
    | none => []
  else []

/-! ## All events -/

/-- A node started: a system node gets its task passed, and the events of a start are handed on. -/
def decideNodeStarted (instanceId nodeId : String) (event : EventName) (s : Snapshot) :
    List Command :=
  let forward : Command := .forward ⟨event, instanceId, nodeId, none⟩
  match event with
  | .taskNodeStart | .automationStart =>
    if ((s.nodes.find? nodeId).map ProcessNode.isSystemAuto).getD false then
      [.spawnAutoPass nodeId, forward]
    else [forward]
  | .notify | .notifyCC | .processEnd => [forward]
  | .taskNodeEnd | .taskParallelPass | .taskInclusionPass | .concurrentRejectCleanup
  | .gatewayConditionReject => []

/-- A node ended: the event of an end is handed on. -/
def decideNodeEnded (instanceId nodeId : String) (event : EventName) : List Command :=
  match event with
  | .taskNodeEnd => [.forward ⟨event, instanceId, nodeId, none⟩]
  | .taskNodeStart | .automationStart | .notify | .notifyCC | .processEnd | .taskParallelPass
  | .taskInclusionPass | .concurrentRejectCleanup | .gatewayConditionReject => []

/-- A task finished: its branch or the branches beside it may be closed, and all other events are
handed on with the task. -/
def decideTaskFinished (event : EventName) (t : Task) (s : Snapshot) (o : DispatchOptions) :
    List Command :=
  match event with
  | .taskParallelPass => decideParallelPass t s o
  | .taskInclusionPass => decideInclusionPass t s o
  | .concurrentRejectCleanup | .gatewayConditionReject => decideRejectCleanup event t s o
  | .taskNodeStart | .taskNodeEnd | .automationStart | .notify | .notifyCC | .processEnd =>
    [.forward ⟨event, t.instanceId, t.nodeId, some t⟩]

/-- What is done about an event. A task is looked at as the snapshot has it. -/
def commandsFor (event : EngineEvent) (s : Snapshot) (o : DispatchOptions) : List Command :=
  match event with
  | .nodeStarted instanceId nodeId e => decideNodeStarted instanceId nodeId e s
  | .nodeEnded instanceId nodeId e => decideNodeEnded instanceId nodeId e
  | .taskFinished e t => decideTaskFinished e (s.current t) s o

end ApprovalFlow
