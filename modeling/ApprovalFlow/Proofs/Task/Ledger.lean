import ApprovalFlow.Proofs.Definition.Table
import ApprovalFlow.Task.Ledger

/-!
# What a ledger counts

A ledger is filled in one pass over the tasks, and decisions read it by single numbers: is a task of
the batch pending, is one rejected, did everybody pass. Each of these is a statement about the tasks
themselves, and here they are.

- `Tally.foldl_record`: the pass over one batch counts its tasks, by status.
- `Ledger.tally_ofTasks`: **the tally of a batch is the count of its tasks**, whatever other tasks
  lie between them.
- `Ledger.rejected_pos_iff`, `Ledger.pending_pos_iff`, `Ledger.allPassed_iff`,
  `Ledger.hasOtherPending_iff`, `Ledger.isTainted_iff`, `Ledger.mem_batchesAt_iff`,
  `Ledger.isCosigned_iff`: what decisions read off.
-/

namespace ApprovalFlow

/-- The tasks of a batch. -/
def Task.ofBatch (tasks : List Task) (node batch : String) : List Task :=
  tasks.filter fun t => t.nodeId == node && t.batch == batch

theorem Task.mem_ofBatch_iff {tasks : List Task} {node batch : String} {t : Task} :
    t ∈ Task.ofBatch tasks node batch ↔ t ∈ tasks ∧ t.nodeId = node ∧ t.batch = batch := by
  unfold Task.ofBatch
  rw [List.mem_filter, Bool.and_eq_true, beq_iff_eq, beq_iff_eq]

theorem Task.ofBatch_cons (t : Task) (rest : List Task) (node batch : String) :
    Task.ofBatch (t :: rest) node batch =
      if t.nodeId = node ∧ t.batch = batch then t :: Task.ofBatch rest node batch
      else Task.ofBatch rest node batch := by
  unfold Task.ofBatch
  simp only [List.filter_cons, Bool.and_eq_true, beq_iff_eq]

/-- How many of some tasks have the status. -/
def Task.count (status : TaskStatus) (tasks : List Task) : Nat :=
  tasks.countP fun t => t.status == status

theorem Task.count_pos_iff {status : TaskStatus} {tasks : List Task} :
    0 < Task.count status tasks ↔ ∃ t ∈ tasks, t.status = status := by
  unfold Task.count
  rw [List.countP_pos_iff]
  simp only [beq_iff_eq]

/-! ## Counting one batch -/

namespace Tally

/-- Each task counts in the total, and under its own status. -/
theorem foldl_record (l : List Task) (c : Tally) :
    l.foldl record c =
      { total := c.total + l.length
        passed := c.passed + Task.count .passed l
        pending := c.pending + Task.count .pending l
        rejected := c.rejected + Task.count .rejected l
        systemPassed := c.systemPassed + Task.count .systemPassed l } := by
  induction l generalizing c with
  | nil => rfl
  | cons t rest ih =>
    rw [List.foldl_cons, ih]
    unfold record Task.count
    cases h : t.status <;> simp [h, Nat.add_assoc, Nat.add_comm 1]

end Tally

/-! ## Finding the batch -/

namespace Ledger

/-- A task counts in the tally of its own batch and in no other. -/
theorem find?_foldl_enter (tasks : List Task) (m : SortedMap BatchKey Tally) (node batch : String) :
    ((tasks.foldl enter m).find? ⟨node, batch⟩).getD {} =
      (Task.ofBatch tasks node batch).foldl Tally.record ((m.find? ⟨node, batch⟩).getD {}) := by
  induction tasks generalizing m with
  | nil => rfl
  | cons t rest ih =>
    rw [List.foldl_cons, ih, Task.ofBatch_cons, enter, SortedMap.find?_alter]
    by_cases hkey : t.nodeId = node ∧ t.batch = batch
    · obtain ⟨rfl, rfl⟩ := hkey
      have hkey : (⟨t.nodeId, t.batch⟩ : BatchKey) = t.key := rfl
      rw [if_pos hkey, if_pos ⟨rfl, rfl⟩, List.foldl_cons]
      rfl
    · have hne : (⟨node, batch⟩ : BatchKey) ≠ t.key := by
        intro h
        obtain ⟨rfl, rfl⟩ := BatchKey.mk.inj h
        exact hkey ⟨rfl, rfl⟩
      rw [if_neg hkey, if_neg hne]

variable {nodes : NodeTable} {tasks : List Task} {node batch : String}

/-- **The tally of a batch is the count of its tasks.** -/
theorem tally_ofTasks :
    (ofTasks nodes tasks).tally node batch =
      { total := (Task.ofBatch tasks node batch).length
        passed := Task.count .passed (Task.ofBatch tasks node batch)
        pending := Task.count .pending (Task.ofBatch tasks node batch)
        rejected := Task.count .rejected (Task.ofBatch tasks node batch)
        systemPassed := Task.count .systemPassed (Task.ofBatch tasks node batch) } := by
  show ((tasks.foldl enter SortedMap.empty).find? ⟨node, batch⟩).getD {} = _
  rw [find?_foldl_enter, SortedMap.find?_empty, Option.getD_none, Tally.foldl_record]
  simp only [Nat.zero_add]

/-! ## What decisions read off -/

theorem rejected_pos_iff :
    0 < ((ofTasks nodes tasks).tally node batch).rejected ↔
      ∃ t ∈ tasks, t.nodeId = node ∧ t.batch = batch ∧ t.status = .rejected := by
  rw [tally_ofTasks, Task.count_pos_iff]
  simp only [Task.mem_ofBatch_iff, and_assoc]

theorem pending_pos_iff :
    0 < ((ofTasks nodes tasks).tally node batch).pending ↔
      ∃ t ∈ tasks, t.nodeId = node ∧ t.batch = batch ∧ t.status = .pending := by
  rw [tally_ofTasks, Task.count_pos_iff]
  simp only [Task.mem_ofBatch_iff, and_assoc]

/-- Approvers passed all tasks of a batch iff there is one and none has another status. -/
theorem allPassed_iff :
    ((ofTasks nodes tasks).tally node batch).allPassed = true ↔
      (∃ t ∈ tasks, t.nodeId = node ∧ t.batch = batch) ∧
        ∀ t ∈ tasks, t.nodeId = node → t.batch = batch → t.status = .passed := by
  rw [tally_ofTasks]
  unfold Tally.allPassed Task.count
  rw [Bool.and_eq_true, decide_eq_true_iff, beq_iff_eq, List.length_pos_iff_exists_mem,
    List.countP_eq_length]
  simp only [Task.mem_ofBatch_iff, beq_iff_eq, and_imp]

/-- Another batch of a node is open iff one of its tasks is pending. -/
theorem hasOtherPending_iff :
    (ofTasks nodes tasks).hasOtherPending node batch = true ↔
      ∃ t ∈ tasks, t.nodeId = node ∧ t.batch ≠ batch ∧ t.status = .pending := by
  unfold hasOtherPending
  rw [List.any_eq_true]
  constructor
  · rintro ⟨⟨⟨node', batch'⟩, c⟩, he, h⟩
    simp only [Bool.and_eq_true, beq_iff_eq, bne_iff_ne, decide_eq_true_eq] at h
    obtain ⟨⟨rfl, hbatch⟩, hpending⟩ := h
    have htally : (ofTasks nodes tasks).tally node' batch' = c := by
      unfold tally tally?
      rw [SortedMap.mem_entries_iff.mp he]
      rfl
    rw [← htally] at hpending
    obtain ⟨t, ht, hnode, rfl, hstatus⟩ := pending_pos_iff.mp hpending
    exact ⟨t, ht, hnode, hbatch, hstatus⟩
  · rintro ⟨t, ht, rfl, hbatch, hstatus⟩
    have hpending : 0 < ((ofTasks nodes tasks).tally t.nodeId t.batch).pending :=
      pending_pos_iff.mpr ⟨t, ht, rfl, rfl, hstatus⟩
    -- a tally that is not zero is an entry
    unfold tally tally? at hpending
    cases hfind : (ofTasks nodes tasks).tallies.find? ⟨t.nodeId, t.batch⟩ with
    | none =>
      rw [hfind] at hpending
      cases hpending
    | some c =>
      rw [hfind] at hpending
      refine ⟨(⟨t.nodeId, t.batch⟩, c), SortedMap.mem_entries_iff.mpr hfind, ?_⟩
      simp only [Bool.and_eq_true, beq_iff_eq, bne_iff_ne, decide_eq_true_eq]
      exact ⟨⟨trivial, hbatch⟩, hpending⟩

/-- A batch is given up iff the system passed one of its tasks. -/
theorem isTainted_iff :
    (ofTasks nodes tasks).isTainted node batch = true ↔
      ∃ t ∈ tasks, t.nodeId = node ∧ t.batch = batch ∧ t.status = .systemPassed := by
  have htally : (ofTasks nodes tasks).isTainted node batch = true ↔
      0 < ((ofTasks nodes tasks).tally node batch).systemPassed := by
    unfold isTainted tally
    cases (ofTasks nodes tasks).tally? node batch with
    | none => exact ⟨nofun, nofun⟩
    | some c => exact decide_eq_true_iff
  rw [htally, tally_ofTasks, Task.count_pos_iff]
  simp only [Task.mem_ofBatch_iff, and_assoc]

/-- The pass over the tasks opens the batches of the tasks and no others. -/
theorem contains_foldl_enter (tasks : List Task) (m : SortedMap BatchKey Tally) (k : BatchKey) :
    (tasks.foldl enter m).contains k = true ↔ m.contains k = true ∨ ∃ t ∈ tasks, t.key = k := by
  induction tasks generalizing m with
  | nil => simp
  | cons t rest ih =>
    rw [List.foldl_cons, ih, enter, SortedMap.contains_alter, Bool.or_eq_true, decide_eq_true_iff]
    simp only [List.exists_mem_cons_iff]
    constructor
    · rintro ((rfl | h) | h)
      · exact .inr (.inl rfl)
      · exact .inl h
      · exact .inr (.inr h)
    · rintro (h | rfl | h)
      · exact .inl (.inr h)
      · exact .inl (.inl rfl)
      · exact .inr h

/-- The batches at a node are those of its tasks. -/
theorem mem_batchesAt_iff :
    batch ∈ (ofTasks nodes tasks).batchesAt node ↔
      ∃ t ∈ tasks, t.nodeId = node ∧ t.batch = batch := by
  have hkey : batch ∈ (ofTasks nodes tasks).batchesAt node ↔
      (ofTasks nodes tasks).tallies.contains ⟨node, batch⟩ = true := by
    unfold batchesAt
    rw [← SortedMap.mem_keys_iff, List.mem_map]
    constructor
    · rintro ⟨⟨node', batch'⟩, hmem, rfl⟩
      obtain ⟨hmem, hnode⟩ := List.mem_filter.mp hmem
      exact beq_iff_eq.mp hnode ▸ hmem
    · intro h
      exact ⟨⟨node, batch⟩, List.mem_filter.mpr ⟨h, beq_self_eq_true node⟩, rfl⟩
  rw [hkey]
  show (tasks.foldl enter SortedMap.empty).contains ⟨node, batch⟩ = true ↔ _
  rw [contains_foldl_enter]
  constructor
  · rintro (h | ⟨t, ht, hkey⟩)
    · cases h
    · exact ⟨t, ht, BatchKey.mk.inj hkey⟩
  · rintro ⟨t, ht, rfl, rfl⟩
    exact .inr ⟨t, ht, rfl⟩

section

variable {nodes : List ProcessNode} (hnodes : (nodes.map (·.id)).Nodup)

include hnodes

/-- If ids of nodes differ, everybody must agree at an id iff its node says so. -/
theorem isCosigned_iff {id : String} :
    (ofTasks (.ofList nodes) tasks).isCosigned id = true ↔
      ∃ n ∈ nodes, n.id = id ∧ n.cosigned = true := by
  unfold isCosigned ofTasks
  rw [List.contains_iff_mem, NodeTable.mem_ids_filter_values]
  simp only [NodeTable.find?_ofList_iff hnodes, and_assoc]

/-- So it is at the id of a node that is known. -/
theorem isCosigned_eq {n : ProcessNode} (hn : n ∈ nodes) :
    (ofTasks (.ofList nodes) tasks).isCosigned n.id = n.cosigned := by
  rw [Bool.eq_iff_iff, isCosigned_iff hnodes]
  constructor
  · rintro ⟨m, hm, hid, hcosigned⟩
    obtain rfl := List.inj_on_of_nodup_map hnodes hm hn hid
    exact hcosigned
  · intro h
    exact ⟨n, hn, rfl, h⟩

end

end Ledger

end ApprovalFlow
