import ApprovalFlow.Progress
import ApprovalFlow.Proofs.Dispatch.Verdict

/-!
# Open batches and live ones

A process that comes back to a node opens a new batch there, and from then on the old one must not
speak for the node. A ledger does not know which batch came first: it takes a batch for superseded
as soon as another one is open. As long as at most one batch of a node is open that is the right
answer. If two are, each is superseded by the other, and the node has no live batch at all.

- `Task.IsOpen`: a task of the batch is pending.
- `Ledger.hasOtherPending_iff_isOpen`: what supersedes a batch.
- `Ledger.exists_live_iff`: **a node has a live batch iff exactly one of its batches is open.**
- `Ledger.two_open_without_live`: two people with an open task each, and no live batch.
- `decideTaskFinished_of_two_open`, `Progress.not_mem_of_two_open`: without a live batch all
  completion events of the node lead to nothing, and the node is shown neither as active nor as
  completed.
-/

namespace ApprovalFlow

/-- A batch is open as long as one of its tasks is pending. -/
def Task.IsOpen (tasks : List Task) (node batch : String) : Prop :=
  ∃ t ∈ tasks, t.nodeId = node ∧ t.batch = batch ∧ t.status = .pending

instance (tasks : List Task) (node batch : String) : Decidable (Task.IsOpen tasks node batch) :=
  inferInstanceAs (Decidable (∃ t ∈ tasks, _))

variable {nodes : NodeTable} {tasks : List Task} {node batch batch' : String}

namespace Ledger

/-- A batch is superseded iff another one is open. -/
theorem hasOtherPending_iff_isOpen :
    (ofTasks nodes tasks).hasOtherPending node batch = true ↔
      ∃ other, other ≠ batch ∧ Task.IsOpen tasks node other := by
  rw [hasOtherPending_iff]
  constructor
  · rintro ⟨t, ht, hnode, hbatch, hpending⟩
    exact ⟨t.batch, hbatch, t, ht, hnode, rfl, hpending⟩
  · rintro ⟨other, hother, t, ht, hnode, rfl, hpending⟩
    exact ⟨t, ht, hnode, hother, hpending⟩

/-- Where two batches are open, every batch of the node is superseded, these two included. -/
theorem hasOtherPending_of_two_open (nodes : NodeTable) (hopen : Task.IsOpen tasks node batch)
    (hopen' : Task.IsOpen tasks node batch') (hne : batch ≠ batch') (any : String) :
    (ofTasks nodes tasks).hasOtherPending node any = true := by
  refine hasOtherPending_iff_isOpen.mpr ?_
  -- at most one of the two is the batch itself
  by_cases h : batch = any
  · exact ⟨batch', fun h' => hne (h.trans h'.symm), hopen'⟩
  · exact ⟨batch, h, hopen⟩

/-- **A node has a live batch iff exactly one of its batches is open**: a batch is live if one of
its tasks is pending and it is not superseded. -/
theorem exists_live_iff :
    (∃ batch, Task.IsOpen tasks node batch ∧
      (ofTasks nodes tasks).hasOtherPending node batch = false) ↔
        ∃! batch, Task.IsOpen tasks node batch := by
  constructor
  · rintro ⟨batch, hopen, hlive⟩
    refine ⟨batch, hopen, fun other hother => ?_⟩
    by_contra hne
    have hsuperseded : (ofTasks nodes tasks).hasOtherPending node batch = true :=
      hasOtherPending_iff_isOpen.mpr ⟨other, hne, hother⟩
    rw [hlive] at hsuperseded
    cases hsuperseded
  · rintro ⟨batch, hopen, hunique⟩
    refine ⟨batch, hopen, ?_⟩
    rw [Bool.eq_false_iff]
    intro hsuperseded
    obtain ⟨other, hne, hother⟩ := hasOtherPending_iff_isOpen.mp hsuperseded
    exact hne (hunique other hother)

/-- The task of an approver in one of two passes through a node. -/
def passTask (id batch : String) : Task :=
  ⟨id, "inst-1", "U", batch, "ann", .pending, false, false, ""⟩

/-- A process came back to a node before the tasks of the first pass were done. -/
theorem two_open_without_live :
    let tasks := [passTask "t1" "b1", passTask "t2" "b2"]
    Task.IsOpen tasks "U" "b1" ∧ Task.IsOpen tasks "U" "b2" ∧
      ∀ batch, (ofTasks SortedMap.empty tasks).hasOtherPending "U" batch = true := by
  intro tasks
  have hfirst : Task.IsOpen tasks "U" "b1" := by decide
  have hsecond : Task.IsOpen tasks "U" "b2" := by decide
  exact ⟨hfirst, hsecond, hasOtherPending_of_two_open _ hfirst hsecond (by decide)⟩

end Ledger

/-! ## A node without a live batch -/

section TwoOpen

variable (hopen : Task.IsOpen tasks node batch) (hopen' : Task.IsOpen tasks node batch')
  (hne : batch ≠ batch')

include hopen hopen' hne

/-- Where two batches are open, no completion event about a task at the node leads to anything. -/
theorem decideTaskFinished_of_two_open {e : EventName} (he : e.joinPolicy?.isSome) {t : Task}
    (hnode : t.nodeId = node) (o : DispatchOptions) :
    decideTaskFinished e t (.ofParts nodes tasks) o = [] := by
  obtain ⟨policy, he⟩ := Option.isSome_iff_exists.mp he
  have hverdict : (Snapshot.ofParts nodes tasks).verdict? policy t = none := by
    refine Snapshot.verdict?_eq_none fun hanswers => hanswers.2 ?_
    rw [← hnode] at hopen hopen'
    exact Ledger.hasOtherPending_iff.mp
      (Ledger.hasOtherPending_of_two_open nodes hopen hopen' hne t.batch)
  rw [decideTaskFinished_eq he, hverdict]

namespace Progress

/-- Where two batches are open, no batch of the node counts. -/
theorem stateOf_of_two_open (nodes : NodeTable) :
    stateOf (.ofTasks nodes tasks) tasks node = .idle := by
  have hnone : liveBatches (.ofTasks nodes tasks) node = [] := by
    refine List.filter_eq_nil_iff.mpr fun b _ => ?_
    have hsuperseded := Ledger.hasOtherPending_of_two_open nodes hopen hopen' hne b
    simp [isStale, hsuperseded]
  simp [stateOf, hnone]

/-- The progress of the instance shows the node neither as completed nor as active, though people
still hold open tasks there. -/
theorem not_mem_of_two_open (definition : List ProcessNode) :
    node ∉ (ofTasks definition tasks).completed.keys ∧
      node ∉ (ofTasks definition tasks).active.keys := by
  have hidle := stateOf_of_two_open hopen hopen' hne (Topology.ofNodes definition).nodes
  constructor <;>
  · intro hmem
    obtain ⟨-, hstate⟩ := List.mem_filter.mp (SortedSet.mem_keys_ofList_iff.mp hmem)
    rw [hidle] at hstate
    cases hstate

end Progress

end TwoOpen

end ApprovalFlow
