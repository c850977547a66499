import ApprovalFlow.Proofs.Definition.Cleanup
import ApprovalFlow.Proofs.Dispatcher.Effects
import ApprovalFlow.Proofs.History.Moves

/-!
# Shutting sibling branches

A rejection shuts the branches beside its own, but only at their heads: the tasks there are closed,
and no task further on is touched. Where every sibling branch is a single step that is all there is
to shut. Where the head of a branch is a condition, it has no tasks of its own, and people behind it
go on working.

- `ProcessDefinition.OnBranch`: the nodes on the branch that starts at a node.
- `ProcessDefinition.LiesBeside`: the nodes on the other branches of a gateway, of which
  `ProcessDefinition.IsSiblingHead` are the heads.
- `mem_cleanup_iff`: the commands of a cleanup.
- `Dispatcher.open_after_cleanup_iff`: **a cleanup closes the tasks at the heads of the other
  branches, and no others.**
- `Dispatcher.shut_iff`: **the other branches are shut iff all their open tasks are at heads.**
- `Dispatcher.open_behind_condition`: a task behind a sibling condition that stays open.
-/

namespace ApprovalFlow

namespace ProcessDefinition

variable {p : ProcessDefinition} {head node : String}

/-- The nodes on the branch that starts at a node. A branch does not go on behind a parallel or
inclusion gateway. -/
inductive OnBranch (p : ProcessDefinition) (head : String) : String → Prop where
  | head : OnBranch p head head
  | next {n m : ProcessNode} (hn : n ∈ p.nodes) (hbranch : OnBranch p head n.id)
      (hgoes : n.isConcurrentJoin = false) (hm : m ∈ p.nodes) (hlists : n.id ∈ m.predecessorIds) :
      OnBranch p head m.id

/-- A set of ids that holds the head and that no link leaves holds the branch. -/
theorem OnBranch.mem_of_closed (ids : List String) (hhead : head ∈ ids)
    (hclosed : ∀ n ∈ p.nodes, n.id ∈ ids → n.isConcurrentJoin = false →
      ∀ m ∈ p.nodes, n.id ∈ m.predecessorIds → m.id ∈ ids)
    (h : p.OnBranch head node) : node ∈ ids := by
  induction h with
  | head => exact hhead
  | next hn _ hgoes hm hlists ih => exact hclosed _ hn ih hgoes _ hm hlists

/-- The heads of the other branches of a gateway. -/
def IsSiblingHead (p : ProcessDefinition) (gateway own node : String) : Prop :=
  node ≠ own ∧ ∃ n ∈ p.nodes, n.id = node ∧ gateway ∈ n.predecessorIds

instance (p : ProcessDefinition) (gateway own node : String) :
    Decidable (p.IsSiblingHead gateway own node) :=
  inferInstanceAs (Decidable (_ ∧ ∃ n ∈ p.nodes, _))

/-- The nodes on another branch of a gateway that are not on one's own. -/
def LiesBeside (p : ProcessDefinition) (gateway own node : String) : Prop :=
  (∃ head, p.IsSiblingHead gateway own head ∧ p.OnBranch head node) ∧ ¬ p.OnBranch own node

end ProcessDefinition

/-! ## What a cleanup closes -/

section Cleanup

variable {p : ProcessDefinition} {tasks : List Task} {e : EventName} {t : Task}
  {gateway own : String}

/-- The commands of a cleanup are those that close the other branches, each from its head on. -/
theorem mem_cleanup_iff (hnodes : (p.nodes.map (·.id)).Nodup) (he : e.isCleanup = true)
    (hrejected : t.isRejected = true)
    (hbranch : (Snapshot.ofParts p.table tasks).rejectedBranch? e t.nodeId = some (gateway, own))
    (o : DispatchOptions) {c : Command} :
    c ∈ decideTaskFinished e t (.ofParts p.table tasks) o ↔
      ∃ head, p.IsSiblingHead gateway own head ∧
        c ∈ closeSibling (.ofParts p.table tasks) o head := by
  have hcommands : decideTaskFinished e t (.ofParts p.table tasks) o =
      (((Snapshot.ofParts p.table tasks).branchHeads gateway).filter fun h => h != own).flatMap
        (closeSibling (.ofParts p.table tasks) o) := by
    rw [decideTaskFinished_of_isCleanup he, decideRejectCleanup_eq hrejected hbranch]
  have hheads : ∀ x, x ∈ ((Snapshot.ofParts p.table tasks).branchHeads gateway).filter
      (fun h => h != own) ↔ p.IsSiblingHead gateway own x := by
    intro x
    rw [List.mem_filter, bne_iff_ne, and_comm]
    exact and_congr_right fun _ => Snapshot.mem_branchHeads_iff hnodes
  rw [hcommands, List.mem_flatMap]
  simp only [hheads]

/-- The commands of a cleanup close all open tasks at the heads of the other branches. -/
theorem finishPending_mem_cleanup_iff (hnodes : (p.nodes.map (·.id)).Nodup)
    (he : e.isCleanup = true) (hrejected : t.isRejected = true)
    (hbranch : (Snapshot.ofParts p.table tasks).rejectedBranch? e t.nodeId = some (gateway, own))
    (o : DispatchOptions) {node : String} {batch : Option String} {status : TaskStatus}
    {comment : String} :
    .finishPending node batch status comment ∈
        decideTaskFinished e t (.ofParts p.table tasks) o ↔
      p.IsSiblingHead gateway own node ∧ batch = none ∧ status = .systemRejected ∧
        comment = o.cleanupComment := by
  rw [mem_cleanup_iff hnodes he hrejected hbranch]
  simp only [mem_closeSibling_iff]
  constructor
  · rintro ⟨head, hhead, heq | ⟨g, -, heq⟩⟩
    · injection heq with hnode hbatch hstatus hcomment
      exact ⟨hnode ▸ hhead, hbatch, hstatus, hcomment⟩
    · cases heq
  · rintro ⟨hhead, rfl, rfl, rfl⟩
    exact ⟨node, hhead, .inl rfl⟩

end Cleanup

namespace Dispatcher

variable {hooks : HookEvent → Except FlowError Unit} {autoPass : AutoPassOptions}
  {dispatch : DispatchOptions} {d : Dispatcher Store} {p : ProcessDefinition} {e : EventName}
  {q : Task} {gateway own : String}

/-- **A cleanup closes the tasks at the heads of the other branches, and no others.** -/
theorem open_after_cleanup_iff (hnodes : (p.nodes.map (·.id)).Nodup)
    (hp : d.engine.definitionFor? q.instanceId = some p) (he : e.isCleanup = true)
    (hrejected : (d.engine.current q).isRejected = true)
    (hbranch : (Snapshot.ofParts p.table (d.engine.tasksOf q.instanceId)).rejectedBranch? e
      (d.engine.current q).nodeId = some (gateway, own)) {t : Task} (hopen : t.finished = false) :
    t ∈ (d.move (Store.wiring hooks autoPass dispatch)
        (.handle (.taskFinished e q))).engine.tasks ↔
      t ∈ d.engine.tasks ∧
        ¬ (t.instanceId = q.instanceId ∧ p.IsSiblingHead gateway own t.nodeId) := by
  rw [engine_move_handle, Store.commands_taskFinished hp]
  constructor
  · intro ht
    refine ⟨(Store.settles_foldl_obey _ _ _).unfinished ht hopen, ?_⟩
    rintro ⟨hinst, hhead⟩
    -- a task at such a head is closed by the command about the head
    have hcommand := (finishPending_mem_cleanup_iff hnodes he hrejected hbranch dispatch).mpr
      ⟨hhead, rfl, rfl, rfl⟩
    have hclosed := Store.finished_of_finishPending hcommand ht
    rw [Bool.eq_false_iff] at hclosed
    exact hclosed (Store.isOpenAt_iff.mpr ⟨hinst, rfl, hopen, .inl rfl⟩)
  · rintro ⟨ht, hother⟩
    -- no command is about the node of the task, so the tasks there stay as they are
    have hat : t ∈ d.engine.tasksAt t.instanceId t.nodeId :=
      List.mem_filter.mpr ⟨ht, by simp⟩
    rw [← Store.tasksAt_foldl_obey] at hat
    · exact (List.mem_filter.mp hat).1
    · intro hinst node' batch status comment hcommand hnode
      obtain ⟨hhead, -⟩ :=
        (finishPending_mem_cleanup_iff hnodes he hrejected hbranch dispatch).mp hcommand
      exact hother ⟨hinst.symm, hnode ▸ hhead⟩

/-- **The other branches are shut iff all their open tasks are at heads.** A person rejected a task,
and the cleanup event that the step of the task subscribes to is handled. Then the dispatcher finds a
gateway and the head of the rejected branch, and afterwards no task beside that branch is open if
and only if each one that was open before is at the head of its branch. -/
theorem shut_iff (hooks : HookEvent → Except FlowError Unit) (autoPass : AutoPassOptions)
    (dispatch : DispatchOptions) {dia : Diagram} {options : CompilerOptions} {name : String}
    (hd : dia.Unambiguous) (hc : dia.compile options name = .ok p)
    (hp : d.engine.definitionFor? q.instanceId = some p) {u : ProcessNode} (hu : u ∈ p.nodes)
    (he : e.isCleanup = true) (hsub : u.subscribesTo e = true)
    (hnode : (d.engine.current q).nodeId = u.id)
    (hrejected : (d.engine.current q).isRejected = true) :
    ∃ gateway own,
      (Snapshot.ofParts p.table (d.engine.tasksOf q.instanceId)).rejectedBranch? e u.id =
        some (gateway, own) ∧
      ((∀ t ∈ (d.move (Store.wiring hooks autoPass dispatch)
            (.handle (.taskFinished e q))).engine.tasksOf q.instanceId,
          p.LiesBeside gateway own t.nodeId → t.finished = true) ↔
        ∀ t ∈ d.engine.tasksOf q.instanceId, p.LiesBeside gateway own t.nodeId →
          t.finished = false → p.IsSiblingHead gateway own t.nodeId) := by
  obtain ⟨gateway, own, hbranch⟩ :=
    hd.exists_rejectedBranch hc hu he hsub (d.engine.tasksOf q.instanceId)
  refine ⟨gateway, own, hbranch, ?_⟩
  rw [← hnode] at hbranch
  have hiff : ∀ t, t.finished = false →
      (t ∈ (d.move (Store.wiring hooks autoPass dispatch)
          (.handle (.taskFinished e q))).engine.tasks ↔
        t ∈ d.engine.tasks ∧
          ¬ (t.instanceId = q.instanceId ∧ p.IsSiblingHead gateway own t.nodeId)) :=
    fun t hopen => open_after_cleanup_iff (hd.nodup_ids hc) hp he hrejected hbranch hopen
  unfold Store.tasksOf
  simp only [List.mem_filter, beq_iff_eq]
  constructor
  · rintro hshut t ⟨ht, hinst⟩ hbeside hopen
    by_contra hhead
    have hafter := (hiff t hopen).mpr ⟨ht, fun h => hhead h.2⟩
    rw [hshut t ⟨hafter, hinst⟩ hbeside] at hopen
    cases hopen
  · rintro hheads t ⟨ht, hinst⟩ hbeside
    by_contra hopen
    rw [Bool.not_eq_true] at hopen
    obtain ⟨hbefore, hother⟩ := (hiff t hopen).mp ht
    exact hother ⟨hinst, hheads t ⟨hbefore, hinst⟩ hbeside hopen⟩

end Dispatcher

namespace Diagram

/-- Behind a choice two people work at once, each on a branch with one step. -/
def pair : Diagram where
  nodes := [⟨"S", .start, .start ""⟩, ⟨"C", .condition, .condition ""⟩,
    ⟨"P", .parallel, .gateway ""⟩, ⟨"U1", .user, .user { approverIds := ["ann"] }⟩,
    ⟨"U2", .user, .user { approverIds := ["bob"] }⟩, ⟨"J", .parallel, .gateway ""⟩,
    ⟨"E", .finish, .finish ""⟩]
  edges := [⟨"e1", "S", "C", {}⟩, ⟨"e2", "C", "P", {}⟩, ⟨"e3", "P", "U1", {}⟩,
    ⟨"e4", "P", "U2", {}⟩, ⟨"e5", "U1", "J", {}⟩, ⟨"e6", "U2", "J", {}⟩, ⟨"e7", "J", "E", {}⟩]

/-- Two people work at once, each behind a choice of their own. -/
def choices : Diagram where
  nodes := [⟨"S", .start, .start ""⟩, ⟨"P", .parallel, .gateway ""⟩,
    ⟨"C1", .condition, .condition ""⟩, ⟨"C2", .condition, .condition ""⟩,
    ⟨"U1", .user, .user { approverIds := ["ann"] }⟩,
    ⟨"U2", .user, .user { approverIds := ["bob"] }⟩, ⟨"J", .inclusion, .gateway ""⟩,
    ⟨"E", .finish, .finish ""⟩]
  edges := [⟨"e1", "S", "P", {}⟩, ⟨"e2", "P", "C1", {}⟩, ⟨"e3", "P", "C2", {}⟩,
    ⟨"e4", "C1", "U1", {}⟩, ⟨"e5", "C2", "U2", {}⟩, ⟨"e6", "U1", "J", {}⟩, ⟨"e7", "U2", "J", {}⟩,
    ⟨"e8", "J", "E", {}⟩]

/-- What a diagram is compiled to, if it is. -/
def compiled (d : Diagram) : ProcessDefinition := (d.compile {} "two").toOption.getD ⟨"two", []⟩

end Diagram

namespace Dispatcher

/-- Two people get their tasks. -/
def bothAtWork (dia : Diagram) : List Move :=
  [.call (.submit dia.compiled), .call (.startInstance "proc-1"),
    .call (.createTask "inst-1" "U1" "b1" "ann" false),
    .call (.createTask "inst-1" "U2" "b2" "bob" false)]

/-- The task of the first of them, as it is created. -/
def firstTask : Task := ⟨"task-1", "inst-1", "U1", "b1", "ann", .pending, false, false, ""⟩

/-- The first of them says no. -/
def firstRejects (dia : Diagram) : List Move :=
  bothAtWork dia ++ [.call (.completeTask "task-1" .rejected "no")]

/-- Where the other branch is a single step, it is shut. -/
theorem shut_iff_pair :
    let w := Store.wiring (fun _ => .ok ()) {} {}
    let d := initial.play w (firstRejects .pair)
    ∀ t ∈ (d.move w (.handle (.taskFinished .concurrentRejectCleanup firstTask))).engine.tasksOf
      "inst-1", Diagram.pair.compiled.LiesBeside "P" "U1" t.nodeId → t.finished = true := by
  intro w d
  have hd : Diagram.pair.Unambiguous := by decide
  have hc : Diagram.pair.compile {} "two" = .ok Diagram.pair.compiled := rfl
  have hp : d.engine.definitionFor? firstTask.instanceId = some Diagram.pair.compiled := by decide
  obtain ⟨u, hu, hid, hsub⟩ : ∃ u ∈ Diagram.pair.compiled.nodes, u.id = "U1" ∧
      u.subscribesTo .concurrentRejectCleanup = true := by decide
  have hnode : (d.engine.current firstTask).nodeId = u.id := by
    rw [hid]
    decide
  obtain ⟨gateway, own, hbranch, hshut⟩ :=
    shut_iff (fun _ => .ok ()) {} {} hd hc hp hu rfl hsub hnode (by decide)
  have hfound : (Snapshot.ofParts Diagram.pair.compiled.table
      (d.engine.tasksOf "inst-1")).rejectedBranch? .concurrentRejectCleanup "U1" =
        some ("P", "U1") := by decide
  rw [hid] at hbranch
  obtain ⟨rfl, rfl⟩ := Prod.mk.inj (Option.some.inj (hbranch.symm.trans hfound))
  -- the only open task is at the head of the other branch
  have hheads : ∀ t ∈ d.engine.tasksOf "inst-1", t.finished = false →
      Diagram.pair.compiled.IsSiblingHead "P" "U1" t.nodeId := by decide
  exact hshut.mpr fun t ht _ hopen => hheads t ht hopen

/-- Where the other branch begins with a condition, the person behind it goes on working. -/
theorem open_behind_condition :
    let w := Store.wiring (fun _ => .ok ()) {} {}
    let d := initial.play w (firstRejects .choices)
    Diagram.choices.Unambiguous ∧ Diagram.choices.compile {} "two" = .ok Diagram.choices.compiled ∧
      d.engine.definitionFor? "inst-1" = some Diagram.choices.compiled ∧
      (∃ u ∈ Diagram.choices.compiled.nodes, u.id = "U1" ∧
        u.subscribesTo .gatewayConditionReject = true) ∧
      (d.engine.current firstTask).nodeId = "U1" ∧
      (d.engine.current firstTask).isRejected = true ∧
      (Snapshot.ofParts Diagram.choices.compiled.table (d.engine.tasksOf "inst-1")).rejectedBranch?
        .gatewayConditionReject "U1" = some ("P", "C1") ∧
      ∃ t ∈ (d.move w (.handle (.taskFinished .gatewayConditionReject firstTask))).engine.tasksOf
        "inst-1", Diagram.choices.compiled.LiesBeside "P" "C1" t.nodeId ∧ t.finished = false := by
  intro w d
  refine ⟨by decide, rfl, by decide, by decide, by decide, by decide, by decide, ?_⟩
  obtain ⟨t, ht, hnode, hopen⟩ : ∃ t ∈ (d.move w
      (.handle (.taskFinished .gatewayConditionReject firstTask))).engine.tasksOf "inst-1",
        t.nodeId = "U2" ∧ t.finished = false := by decide
  refine ⟨t, ht, ?_, hopen⟩
  rw [hnode]
  obtain ⟨n, hn, hid, hgoes⟩ : ∃ n ∈ Diagram.choices.compiled.nodes, n.id = "C2" ∧
      n.isConcurrentJoin = false := by decide
  obtain ⟨m, hm, hid', hlists⟩ : ∃ m ∈ Diagram.choices.compiled.nodes, m.id = "U2" ∧
      "C2" ∈ m.predecessorIds := by decide
  have hbranch : Diagram.choices.compiled.OnBranch "C2" "U2" := by
    rw [← hid] at hlists ⊢
    rw [← hid']
    exact .next hn .head hgoes hm hlists
  refine ⟨⟨"C2", by decide, hbranch⟩, fun hown => ?_⟩
  -- the rejected branch ends at the joining gateway
  have hmem := hown.mem_of_closed ["C1", "U1", "J"] (by decide) (by decide)
  exact absurd hmem (by decide)

end Dispatcher

end ApprovalFlow
