import ApprovalFlow.Proofs.Engine.Settling
import ApprovalFlow.Proofs.Task.Ledger

/-!
# Open and pending

A task says in two ways whether it waits for somebody. The engine goes by a flag: it closes what is
not finished. Decisions go by the status: they count what is pending. No type ties the two together.
What does is that whoever changes a task sets both.

- `Task.Coherent`, `Store.Coherent`: flag and status agree, of one task and of all that are stored.
- `Store.Coherent.createTask`, `Store.Coherent.insertTask`, `Store.Coherent.completeTask`,
  `Store.Coherent.passTask`, `Store.Coherent.finishPending`: **the calls of an engine in memory keep
  them in agreement**, whatever an approver decides.
- `Store.Coherent.count_finishPending`: then closing the open tasks of a batch closes just those that
  a ledger counts as pending.
-/

namespace ApprovalFlow

namespace Task

/-- A task is finished iff it is not pending. -/
def Coherent (t : Task) : Prop := t.finished = true ↔ t.status ≠ .pending

instance (t : Task) : Decidable t.Coherent := inferInstanceAs (Decidable (_ ↔ _))

variable {t : Task}

theorem Coherent.unfinished_iff (ht : t.Coherent) : t.finished = false ↔ t.status = .pending := by
  rw [← not_iff_not, Bool.not_eq_false]
  exact ht

/-- A task that was closed is coherent, unless it was closed as pending. -/
theorem coherent_close {status : TaskStatus} (hstatus : status ≠ .pending) (t : Task)
    (comment : String) :
    Coherent { t with status := status, finished := true, comment := comment } :=
  iff_of_true rfl hstatus

theorem Coherent.pass (ht : t.Coherent) (comment : String) : (t.pass comment).Coherent := by
  unfold Task.pass
  split
  · exact ht
  · exact coherent_close (by decide : TaskStatus.passed ≠ .pending) t comment

/-- So is a task after any decision: one that is pending again is open again. -/
theorem coherent_complete (t : Task) (status : TaskStatus) (comment : String) :
    (t.complete status comment).Coherent :=
  bne_iff_ne

end Task

namespace Store

/-- All stored tasks are coherent. -/
def Coherent (s : Store) : Prop := ∀ t ∈ s.tasks, t.Coherent

instance (s : Store) : Decidable s.Coherent := inferInstanceAs (Decidable (∀ t ∈ s.tasks, _))

namespace Coherent

variable {s s' : Store} (hs : s.Coherent)

include hs

/-- A new task is pending and open. -/
theorem createTask (inst node batch user : String) (cosigned : Bool) :
    (s.createTask inst node batch user cosigned).2.Coherent := by
  intro t ht
  rcases List.mem_append.mp ht with ht | ht
  · exact hs t ht
  · rw [List.mem_singleton.mp ht]
    exact iff_of_false nofun fun h => h rfl

theorem insertTask {t : Task} (ht : t.Coherent) : (s.insertTask t).Coherent := by
  intro u hu
  rcases List.mem_append.mp hu with hu | hu
  · exact hs u (List.mem_filter.mp hu).1
  · rwa [List.mem_singleton.mp hu]

/-- A change of the first task with an id keeps the tasks coherent, if it keeps that one so. -/
theorem alterFirst {id : String} {f : Task → Task} {u : Task} {l : List Task}
    (h : Task.alterFirst id f s.tasks = some (u, l)) (hf : ∀ t ∈ s.tasks, (f t).Coherent) :
    Coherent { s with tasks := l } := by
  obtain ⟨pre, t, post, hl, rfl, -, -⟩ := Task.alterFirst_eq_some h
  intro v hv
  have hmem : ∀ v, v ∈ pre ∨ v ∈ t :: post → v ∈ s.tasks := by
    intro v hv
    rw [hl]
    exact List.mem_append.mpr hv
  rcases List.mem_append.mp hv with hv | hv
  · exact hs v (hmem v (.inl hv))
  · rcases List.mem_cons.mp hv with rfl | hv
    · exact hf t (hmem t (.inr List.mem_cons_self))
    · exact hs v (hmem v (.inr (List.mem_cons_of_mem _ hv)))

theorem completeTask {id comment : String} {status : TaskStatus} {u : Task}
    (h : s.completeTask id status comment = .ok (u, s')) : s'.Coherent := by
  unfold Store.completeTask at h
  split at h
  · rename_i hl
    obtain ⟨-, rfl⟩ := Prod.mk.inj (Except.ok.inj h)
    exact hs.alterFirst hl fun t _ => t.coherent_complete status comment
  · cases h

theorem passTask {id comment : String} (h : s.passTask id comment = .ok s') : s'.Coherent := by
  unfold Store.passTask at h
  split at h
  · rename_i hl
    obtain rfl := Except.ok.inj h
    exact hs.alterFirst hl fun t ht => (hs t ht).pass comment
  · cases h

theorem finishPending {status : TaskStatus} (hstatus : status ≠ .pending) (inst node : String)
    (batch : Option String) (comment : String) :
    (s.finishPending inst node batch status comment).2.Coherent := by
  intro u hu
  rw [tasks_finishPending] at hu
  obtain ⟨t, ht, rfl⟩ := List.mem_map.mp hu
  unfold closeAt
  split
  · exact Task.coherent_close hstatus t comment
  · exact hs t ht

/-- **Closing the open tasks of a batch closes as many as a ledger counts as pending.** -/
theorem count_finishPending (nodes : NodeTable) (inst node batch : String) (status : TaskStatus)
    (comment : String) :
    (s.finishPending inst node (some batch) status comment).1 =
      ((Ledger.ofTasks nodes (s.tasksOf inst)).tally node batch).pending := by
  rw [Ledger.tally_ofTasks]
  unfold Store.finishPending Task.count Task.ofBatch tasksOf
  dsimp only
  rw [List.countP_filter, List.countP_filter]
  refine List.countP_congr fun t ht => ?_
  rw [isOpenAt_iff, (hs t ht).unfinished_iff]
  simp only [Bool.and_eq_true, beq_iff_eq, Option.some.injEq, reduceCtorEq, false_or]
  constructor
  · rintro ⟨hinst, hnode, hstatus, hbatch⟩
    exact ⟨⟨hstatus, hnode, hbatch.symm⟩, hinst⟩
  · rintro ⟨⟨hstatus, hnode, hbatch⟩, hinst⟩
    exact ⟨hinst, hnode, hstatus, hbatch.symm⟩

end Coherent

end Store

end ApprovalFlow
