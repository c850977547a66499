import ApprovalFlow.Definition.Basic
import ApprovalFlow.Task.Basic

/-!
# The ledger of batches

What a list of tasks says about the batches of a process, counted in one pass.

- `BatchKey`: a node and a batch of tasks at it.
- `Tally`: how many tasks of a batch there are, and how they stand.
- `Ledger`: the tallies of all batches, and the nodes where everybody must agree.
- `Ledger.isSettledBy`: is a batch settled by the approval of one of its tasks?
- `Ledger.hasOtherPending`: is another pass through the node still open?
-/

namespace ApprovalFlow

/-- A batch: its node and its code. -/
structure BatchKey where
  node : String
  batch : String
  deriving DecidableEq, Repr

namespace BatchKey

/-- Batches are ordered by node, and at one node by code. -/
instance : Ord BatchKey := ⟨compareLex (compareOn node) (compareOn batch)⟩

instance : Std.TransOrd BatchKey :=
  inferInstanceAs (Std.TransCmp (compareLex (compareOn node) (compareOn batch)))

instance : Std.LawfulEqOrd BatchKey where
  eq_of_compare {a b} h := by
    obtain ⟨hn, hb⟩ := compareLex_eq_eq.1 h
    cases a
    cases b
    exact congr (congrArg mk (Std.LawfulEqCmp.eq_of_compare hn)) (Std.LawfulEqCmp.eq_of_compare hb)

end BatchKey

/-- The tasks of one batch, counted by status. Revoked tasks and those that the system rejected
count only in the total. -/
structure Tally where
  total : Nat := 0
  passed : Nat := 0
  pending : Nat := 0
  rejected : Nat := 0
  systemPassed : Nat := 0
  deriving DecidableEq, Repr

namespace Tally

/-- Count a task. -/
def record (c : Tally) (t : Task) : Tally :=
  let c := { c with total := c.total + 1 }
  match t.status with
  | .passed => { c with passed := c.passed + 1 }
  | .pending => { c with pending := c.pending + 1 }
  | .rejected => { c with rejected := c.rejected + 1 }
  | .systemPassed => { c with systemPassed := c.systemPassed + 1 }
  | .revoked | .systemRejected => c

/-- Is there a task, and did approvers pass all of them? -/
def allPassed (c : Tally) : Bool := decide (0 < c.total) && c.passed == c.total

end Tally

/-- The batch of a task. -/
def Task.key (t : Task) : BatchKey := ⟨t.nodeId, t.batch⟩

/-- What a list of tasks says about the batches of a process. -/
structure Ledger where
  tallies : SortedMap BatchKey Tally
  /-- The nodes where everybody must agree. -/
  cosignedNodes : List String
  deriving DecidableEq

namespace Ledger

/-- Count a task in its batch. -/
def enter (m : SortedMap BatchKey Tally) (t : Task) : SortedMap BatchKey Tally :=
  m.alter t.key fun old => (old.getD {}).record t

/-- The ledger of a list of tasks, for the nodes of a definition. -/
def ofTasks (nodes : NodeTable) (tasks : List Task) : Ledger where
  tallies := tasks.foldl enter SortedMap.empty
  cosignedNodes := (nodes.values.filter (·.cosigned)).map (·.id)

/-- The tally of a batch that has a task. -/
def tally? (l : Ledger) (node batch : String) : Option Tally := l.tallies.find? ⟨node, batch⟩

/-- The tally of a batch, all zero if it has no task. -/
def tally (l : Ledger) (node batch : String) : Tally := (l.tally? node batch).getD {}

/-- The batches at a node, ascending. -/
def batchesAt (l : Ledger) (node : String) : List String :=
  (l.tallies.keys.filter fun k => k.node == node).map (·.batch)

/-- Must everybody agree at the node? -/
def isCosigned (l : Ledger) (node : String) : Bool := l.cosignedNodes.contains node

/-- Did the system, and not an approver, pass a task of the batch? Its branch counts as given up. -/
def isTainted (l : Ledger) (node batch : String) : Bool :=
  (l.tally? node batch).any fun c => decide (0 < c.systemPassed)

/-- Does the approval of the task settle its batch? An approver must have passed it, and all tasks
of the batch where everybody must agree. -/
def isSettledBy (l : Ledger) (t : Task) : Bool :=
  t.isPassed && (!(t.cosigned || l.isCosigned t.nodeId) || (l.tally t.nodeId t.batch).allPassed)

/-- Does another batch at the node have a pending task? The process came back to the node, and the
batch is not the live one. -/
def hasOtherPending (l : Ledger) (node batch : String) : Bool :=
  l.tallies.entries.any fun (k, c) => k.node == node && k.batch != batch && decide (0 < c.pending)

end Ledger

end ApprovalFlow
