import ApprovalFlow.Progress
import ApprovalFlow.Proofs.Dispatch.Lookup
import ApprovalFlow.Proofs.Task.Ledger
import Mathlib.Data.List.Sort

/-!
# The order of nodes and tasks

The host engine lists tasks in the order in which it stored them, and a definition lists its nodes
in the order in which they were compiled. A decision goes through both lists: it looks for the first
task with an id, counts tasks batch by batch, and picks nodes by their predecessors. None of this
depends on the order of the lists if ids are not shared.

- `Task.find?_perm`: the first task with an id is the only one.
- `Tally.record_comm`, `Ledger.ofTasks_perm`: **tasks are counted alike in any order.**
- `Snapshot.branchHeads_eq_mergeSort`, `Snapshot.joinsAfter_eq_mergeSort`: the nodes that are found
  are what a choice from any list of the nodes gives after sorting.
- `Snapshot.decisions_ignore_order`: **the same tasks and nodes in another order lead to the same
  commands, the same ledger and the same progress.**
-/

namespace ApprovalFlow

/-! ## Tasks -/

namespace Task

variable {tasks tasks' : List Task}

theorem find?_id_iff (hids : (tasks.map (·.id)).Nodup) {id : String} {t : Task} :
    tasks.find? (fun u => u.id == id) = some t ↔ t ∈ tasks ∧ t.id = id := by
  constructor
  · intro h
    exact ⟨List.mem_of_find?_eq_some h, by simpa using List.find?_some h⟩
  · rintro ⟨ht, rfl⟩
    obtain ⟨u, hu⟩ := Option.isSome_iff_exists.mp
      (List.find?_isSome.mpr ⟨t, ht, beq_self_eq_true t.id⟩ :
        (tasks.find? fun u => u.id == t.id).isSome)
    have hid : u.id = t.id := by simpa using List.find?_some hu
    rw [hu, List.inj_on_of_nodup_map hids (List.mem_of_find?_eq_some hu) ht hid]

/-- The first task with an id is the only one. -/
theorem find?_perm (hids : (tasks.map (·.id)).Nodup) (h : tasks.Perm tasks') (id : String) :
    tasks.find? (fun u => u.id == id) = tasks'.find? fun u => u.id == id := by
  refine Option.ext fun t => ?_
  rw [find?_id_iff hids, find?_id_iff ((h.map _).nodup_iff.mp hids), h.mem_iff]

end Task

/-- Two tasks are counted alike in either order. -/
theorem Tally.record_comm (c : Tally) (t u : Task) :
    (c.record t).record u = (c.record u).record t := by
  unfold record
  cases t.status <;> cases u.status <;> rfl

namespace Ledger

/-- Two tasks are entered alike in either order, be they of one batch or of two. -/
theorem enter_comm (m : SortedMap BatchKey Tally) (t u : Task) :
    enter (enter m t) u = enter (enter m u) t := by
  refine SortedMap.ext_find? fun k => ?_
  unfold enter
  simp only [SortedMap.find?_alter]
  by_cases ht : k = t.key
  · by_cases hu : k = u.key
    · rw [if_pos hu, if_pos ht, if_pos (hu ▸ ht), if_pos (ht ▸ hu), ← ht, ← hu]
      exact congrArg some (Tally.record_comm _ t u)
    · have hne : t.key ≠ u.key := fun h => hu (ht.trans h)
      rw [if_neg hu, if_pos ht, if_pos ht, if_neg hne]
  · by_cases hu : k = u.key
    · have hne : u.key ≠ t.key := fun h => ht (hu.trans h)
      rw [if_pos hu, if_neg ht, if_pos hu, if_neg hne]
    · rw [if_neg hu, if_neg ht, if_neg ht, if_neg hu]

/-- **Tasks are counted alike in any order.** -/
theorem ofTasks_perm (table : NodeTable) {tasks tasks' : List Task} (h : tasks.Perm tasks') :
    ofTasks table tasks = ofTasks table tasks' := by
  unfold ofTasks
  rw [h.foldl_eq' (fun t _ u _ m => enter_comm m t u)]

end Ledger

/-- What an instance shows of its progress are its batches and which nodes have a task. -/
theorem Progress.ofTasks_perm (nodes : List ProcessNode) {tasks tasks' : List Task}
    (h : tasks.Perm tasks') : ofTasks nodes tasks = ofTasks nodes tasks' := by
  have hnodes : taskNodes (.ofNodes nodes) tasks = taskNodes (.ofNodes nodes) tasks' := by
    unfold taskNodes
    rw [SortedSet.ofList_congr fun id => (h.map (·.nodeId)).mem_iff]
  have hsettled (l : Ledger) : isSettled l tasks = isSettled l tasks' := by
    funext node batch
    exact h.any_eq
  have hstate (l : Ledger) : stateOf l tasks = stateOf l tasks' := by
    funext node
    unfold stateOf
    rw [hsettled]
  have hlinks (t : Topology) : traversedLinks t tasks = traversedLinks t tasks' := by
    funext completed reached
    unfold traversedLinks isClear
    simp only [(h.map (·.nodeId)).contains_eq]
  unfold ofTasks
  simp only [hnodes, hstate, hlinks, Ledger.ofTasks_perm _ h]

/-! ## Decisions -/

namespace Snapshot

variable {nodes nodes' : List ProcessNode} {tasks tasks' : List Task}

section

variable (hnodes : (nodes.map (·.id)).Nodup) (h : nodes.Perm nodes')

include hnodes h

/-- A choice of nodes from the table is one from any list of the nodes, sorted. -/
theorem ids_filter_values_eq_mergeSort (p : ProcessNode → Bool) :
    ((NodeTable.ofList nodes).values.filter p).map (·.id) =
      ((nodes'.filter p).map (·.id)).mergeSort := by
  have hvalues : (NodeTable.ofList nodes).values.Perm nodes := by
    refine (List.perm_ext_iff_of_nodup ?_ hnodes.of_map).mpr fun n =>
      NodeTable.mem_values_ofList hnodes
    exact (NodeTable.values_ofList_pairwise nodes).imp fun hlt heq => hlt.ne (congrArg _ heq)
  have hperm : (((NodeTable.ofList nodes).values.filter p).map (·.id)).Perm
      ((nodes'.filter p).map (·.id)).mergeSort :=
    (((hvalues.trans h).filter p).map _).trans (List.mergeSort_perm _ _).symm
  refine hperm.eq_of_pairwise (fun a b _ _ hab hba => le_antisymm hab hba) ?_ ?_
  · exact (NodeTable.ids_filter_values_pairwise nodes p).imp le_of_lt
  · exact List.pairwise_mergeSort' (· ≤ ·) _

theorem branchHeads_eq_mergeSort (id : String) :
    (ofParts (.ofList nodes) tasks).branchHeads id =
      ((nodes'.filter fun n => n.predecessorIds.contains id).map (·.id)).mergeSort :=
  ids_filter_values_eq_mergeSort hnodes h _

theorem joinsAfter_eq_mergeSort (id : String) (policy : Option JoinPolicy) :
    (ofParts (.ofList nodes) tasks).joinsAfter id policy =
      ((nodes'.filter fun n => n.isConcurrentJoin && (policy.isNone || n.joinPolicy? == policy)
        && n.predecessorIds.contains id).map (·.id)).mergeSort :=
  ids_filter_values_eq_mergeSort hnodes h _

end

/-- A decision looks at tasks by their ledger and by the copy of the task that it is about. -/
theorem commandsFor_congr {s s' : Snapshot} (hnodes : s.nodes = s'.nodes)
    (hledger : s.ledger = s'.ledger) (hcurrent : ∀ t, s.current t = s'.current t) (e : EngineEvent)
    (o : DispatchOptions) : commandsFor e s o = commandsFor e s' o := by
  obtain ⟨table, tasks, ledger⟩ := s
  obtain ⟨table', tasks', ledger'⟩ := s'
  obtain rfl : table = table' := hnodes
  obtain rfl : ledger = ledger' := hledger
  cases e with
  | nodeStarted inst node name => cases name <;> rfl
  | nodeEnded inst node name => rfl
  | taskFinished name t =>
    show decideTaskFinished name (current _ t) _ o = decideTaskFinished name (current _ t) _ o
    rw [hcurrent t]
    cases name <;> rfl

/-- **The order of nodes and tasks does not matter** if their ids differ: not to the commands of a
decision, not to what a ledger answers, and the order of tasks not to the progress that is shown. -/
theorem decisions_ignore_order (hnodes : (nodes.map (·.id)).Nodup) (hids : (tasks.map (·.id)).Nodup)
    (hn : nodes.Perm nodes') (ht : tasks.Perm tasks') :
    (∀ e o, commandsFor e (ofParts (.ofList nodes) tasks) o =
        commandsFor e (ofParts (.ofList nodes') tasks') o) ∧
      Ledger.ofTasks (.ofList nodes) tasks = Ledger.ofTasks (.ofList nodes') tasks' ∧
      Progress.ofTasks nodes tasks = Progress.ofTasks nodes tasks' := by
  have htable := NodeTable.ofList_perm hnodes hn
  have hledger : Ledger.ofTasks (.ofList nodes) tasks = Ledger.ofTasks (.ofList nodes') tasks' := by
    rw [htable, Ledger.ofTasks_perm _ ht]
  refine ⟨commandsFor_congr htable hledger fun t => ?_, hledger, Progress.ofTasks_perm nodes ht⟩
  unfold current ofParts
  rw [Task.find?_perm hids ht]

/-- A step with one passed and one pending task, in front of a parallel gateway. -/
theorem decisions_ignore_order_pair :
    let u : ProcessNode := { id := "U", name := "U", type := .approval }
    let q : ProcessNode :=
      { id := "Q", name := "Q", type := .gateway, predecessorIds := ["U"],
        gateway := some { joinPolicy := .waitAll } }
    let ann : Task := ⟨"t-1", "inst-1", "U", "b", "ann", .passed, true, false, ""⟩
    let bob : Task := ⟨"t-2", "inst-1", "U", "b", "bob", .pending, false, false, ""⟩
    let close := [.closeBranch "Q" "U" .passed "c", .finishPending "U" (some "b") .systemPassed "c"]
    commandsFor (.taskFinished .taskParallelPass ann) (ofParts (.ofList [u, q]) [ann, bob])
        { passComment := "c" } = close ∧
      commandsFor (.taskFinished .taskParallelPass ann) (ofParts (.ofList [q, u]) [bob, ann])
        { passComment := "c" } = close ∧
      Ledger.ofTasks (.ofList [u, q]) [ann, bob] = Ledger.ofTasks (.ofList [q, u]) [bob, ann] ∧
      Progress.ofTasks [u, q] [ann, bob] = Progress.ofTasks [u, q] [bob, ann] := by
  intro u q ann bob close
  have hfirst : commandsFor (.taskFinished .taskParallelPass ann)
      (ofParts (.ofList [u, q]) [ann, bob]) { passComment := "c" } = close := by decide
  obtain ⟨hcommands, hledger, hprogress⟩ := decisions_ignore_order
    (show ([u, q].map (·.id)).Nodup by decide) (show ([ann, bob].map (·.id)).Nodup by decide)
    (.swap q u []) (.swap bob ann [])
  exact ⟨hfirst, (hcommands _ _).symm.trans hfirst, hledger, hprogress⟩

end Snapshot

end ApprovalFlow
