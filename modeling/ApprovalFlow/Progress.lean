import ApprovalFlow.Json.Basic
import ApprovalFlow.Task.Ledger
import ApprovalFlow.Topology.Path

/-!
# Progress

How far an instance has come, for drawing its diagram with completed and active nodes marked.

- `Progress`: the nodes, the batches that no longer count, and the links that were taken.
- `Progress.ofTasks`: the progress that a list of tasks shows.
-/

namespace ApprovalFlow

/-- A link between two nodes. -/
structure Link where
  source : String
  target : String
  deriving DecidableEq, Repr

namespace Link

/-- Links are ordered by source, and from one source by target. -/
instance : Ord Link := ⟨compareLex (compareOn source) (compareOn target)⟩

instance : Std.TransOrd Link :=
  inferInstanceAs (Std.TransCmp (compareLex (compareOn source) (compareOn target)))

instance : Std.LawfulEqOrd Link where
  eq_of_compare {a b} h := by
    obtain ⟨hs, ht⟩ := compareLex_eq_eq.1 h
    cases a
    cases b
    exact congr (congrArg mk (Std.LawfulEqCmp.eq_of_compare hs)) (Std.LawfulEqCmp.eq_of_compare ht)

end Link

/-- How far an instance has come. -/
structure Progress where
  completed : SortedSet String
  active : SortedSet String
  /-- Batches that no longer count: another one is open, or the system closed them. -/
  stale : SortedSet BatchKey
  /-- For each completed or active node the last node before it where a person acted. -/
  logicalPrev : SortedMap String String
  /-- The links between completed and active nodes that the instance went along. -/
  traversed : SortedSet Link
  deriving DecidableEq

/-- How a node stands. -/
inductive NodeState where
  | completed
  | active
  | idle
  deriving DecidableEq, Repr

namespace Progress

variable (l : Ledger) (t : Topology) (tasks : List Task)

/-- Does the batch no longer count? -/
def isStale (node batch : String) : Bool := l.hasOtherPending node batch || l.isTainted node batch

/-- Does a task of the batch settle it? -/
def isSettled (node batch : String) : Bool :=
  tasks.any fun task => task.nodeId == node && task.batch == batch && l.isSettledBy task

/-- The batches at a node that count. -/
def liveBatches (node : String) : List String :=
  (l.batchesAt node).filter fun b => !isStale l node b

/-- How a node stands: completed if a batch that counts is settled, else active if one is open. -/
def stateOf (node : String) : NodeState :=
  let live := liveBatches l node
  if live.any (isSettled l tasks node) then .completed
  else if live.any fun b => decide (0 < (l.tally node b).pending) then .active
  else .idle

/-- The ids with a task, ascending, without those of proxies. -/
def taskNodes : List String :=
  (SortedSet.ofList (tasks.map (·.nodeId))).keys.filter fun id =>
    !((t.node? id).map ProcessNode.isProxy).getD false

/-- The links of a path. -/
def linksOf (path : List String) : List Link := (path.zip path.tail).map fun (a, b) => ⟨a, b⟩

/-- Is no node strictly inside the path one with a task? -/
def isClear (withTask : List String) (path : List String) : Bool :=
  path.tail.dropLast.all fun id => !withTask.contains id

/-- The links on shortest paths from a completed node to another node reached, as far as no node
inside the path has a task. -/
def traversedLinks (completed reached : List String) : List Link :=
  let withTask := tasks.map (·.nodeId)
  completed.flatMap fun source =>
    reached.flatMap fun target =>
      if source = target then []
      else
        let path := t.findPath source target
        if isClear withTask path then linksOf path else []

/-- The progress that the tasks of an instance show. -/
def ofTasks (nodes : List ProcessNode) (tasks : List Task) : Progress :=
  let t := Topology.ofNodes nodes
  let l := Ledger.ofTasks t.nodes tasks
  let ids := taskNodes t tasks
  let completed := ids.filter fun id => stateOf l tasks id == .completed
  let active := ids.filter fun id => stateOf l tasks id == .active
  let reached := completed ++ active
  { completed := .ofList completed
    active := .ofList active
    stale := .ofList (ids.flatMap fun id =>
      ((l.batchesAt id).filter (isStale l id)).map fun b => ⟨id, b⟩)
    logicalPrev := .ofList (reached.filterMap fun id =>
      ((t.node? id).bind fun n => n.predecessorIds.head?).map fun p => (id, t.logicalPrev p))
    traversed := .ofList (traversedLinks t tasks completed reached) }

/-- The document of an instance's progress. -/
def toJson (p : Progress) : Json :=
  .object [
    ("completed", .texts p.completed.keys),
    ("active", .texts p.active.keys),
    ("staleBatches", .ofList (fun k : BatchKey => .texts [k.node, k.batch]) p.stale.keys),
    ("logicalPrev", .object (p.logicalPrev.entries.map fun (id, prev) => (id, .text prev))),
    ("traversedEdges", .ofList (fun e : Link => .texts [e.source, e.target]) p.traversed.keys)]

end Progress

end ApprovalFlow
