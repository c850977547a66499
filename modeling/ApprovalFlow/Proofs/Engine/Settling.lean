import ApprovalFlow.Engine.Store
import Mathlib.Data.List.Forall2

/-!
# How stored tasks change

An engine in memory changes its tasks in three ways: it decides the first task with an id, passes
it, or closes all open tasks at a node. To a single task all three do the same: an open task may be
closed, and a finished one stays as it is. Nothing else happens to it, so what is true of finished
tasks stays true.

- `Task.Settles`: a task before and after.
- `Store.Settles`: all tasks of an engine before and after, in their places.
- `Store.settles_completeTask`, `Store.settles_passTask`, `Store.settles_finishPending`: **every
  request settles tasks**; `Store.Settles.trans` puts requests together.
- `Store.Settles.current`: the task that an id finds, once finished, is found unchanged for ever.
-/

namespace ApprovalFlow

/-! ## Lists that change place by place -/

section Places

variable {α : Type} {R R' R'' : α → α → Prop} {l l' l'' : List α} {a b : α}

/-- One change after another. -/
theorem forall₂_trans (htrans : ∀ a b c, R a b → R' b c → R'' a c) (h : List.Forall₂ R l l')
    (h' : List.Forall₂ R' l' l'') : List.Forall₂ R'' l l'' := by
  induction h generalizing l'' with
  | nil =>
    cases h'
    exact .nil
  | cons ha _ ih =>
    obtain ⟨c, rest, hc, hrest, rfl⟩ := List.forall₂_cons_left_iff.mp h'
    exact .cons (htrans _ _ _ ha hc) (ih hrest)

/-- What was in the list is there still, changed. -/
theorem exists_of_mem_left (h : List.Forall₂ R l l') (ha : a ∈ l) : ∃ b ∈ l', R a b := by
  induction h with
  | nil => cases ha
  | cons hb _ ih =>
    rcases List.mem_cons.mp ha with rfl | ha
    · exact ⟨_, List.mem_cons_self, hb⟩
    · obtain ⟨b, hmem, hb⟩ := ih ha
      exact ⟨b, List.mem_cons_of_mem _ hmem, hb⟩

/-- What is in the list now comes from what was. -/
theorem exists_of_mem_right (h : List.Forall₂ R l l') (hb : b ∈ l') : ∃ a ∈ l, R a b :=
  exists_of_mem_left h.flip hb

end Places

namespace Task

/-- A task before and after: an open one may be closed with any status, and a finished one stays as
it is. -/
inductive Settles (t : Task) : Task → Prop where
  | same : Settles t t
  | closed (status : TaskStatus) (comment : String) (hopen : t.finished = false) :
      Settles t { t with status := status, finished := true, comment := comment }

namespace Settles

variable {t u v : Task}

/-- Who a task belongs to never changes. -/
theorem origin (h : Settles t u) :
    u.id = t.id ∧ u.instanceId = t.instanceId ∧ u.nodeId = t.nodeId ∧ u.batch = t.batch := by
  cases h <;> exact ⟨rfl, rfl, rfl, rfl⟩

/-- A task that is still open did not change. -/
theorem eq_of_unfinished (h : Settles t u) (hu : u.finished = false) : u = t := by
  cases h with
  | same => rfl
  | closed => cases hu

theorem eq_of_finished (h : Settles t u) (ht : t.finished = true) : u = t := by
  cases h with
  | same => rfl
  | closed _ _ hopen => exact absurd ht (Bool.eq_false_iff.mp hopen)

theorem trans (h : Settles t u) (h' : Settles u v) : Settles t v := by
  cases h with
  | same => exact h'
  | closed status comment hopen =>
    obtain rfl := h'.eq_of_finished rfl
    exact .closed status comment hopen

end Settles

theorem settles_pass (t : Task) (comment : String) : Settles t (t.pass comment) := by
  unfold pass
  split
  · exact .same
  · rename_i h
    exact .closed .passed comment (Bool.eq_false_iff.mpr h)

theorem settles_complete {t : Task} (ht : t.finished = false) {status : TaskStatus}
    (hstatus : status ≠ .pending) (comment : String) : Settles t (t.complete status comment) := by
  have hfinished : (status != .pending) = true := bne_iff_ne.mpr hstatus
  unfold complete
  rw [hfinished]
  exact .closed status comment ht

/-! ## Changing the first task with an id -/

theorem find?_id_cons (t : Task) (rest : List Task) (id : String) :
    (t :: rest).find? (fun t => t.id == id) =
      if t.id = id then some t else rest.find? fun t => t.id == id := by
  simp only [List.find?_cons]
  by_cases hid : t.id = id
  · rw [if_pos hid, hid, beq_self_eq_true]
  · rw [if_neg hid, beq_eq_false_iff_ne.mpr hid]

/-- The change finds the task that a search for the id finds, and leaves the others alone. -/
theorem alterFirst_eq_some {id : String} {f : Task → Task} {l l' : List Task} {u : Task}
    (h : alterFirst id f l = some (u, l')) :
    ∃ pre t post, l = pre ++ t :: post ∧ l' = pre ++ f t :: post ∧ u = f t ∧
      l.find? (fun t => t.id == id) = some t := by
  induction l generalizing l' with
  | nil => cases h
  | cons t rest ih =>
    rw [alterFirst] at h
    by_cases hid : t.id = id
    · rw [if_pos hid] at h
      obtain ⟨rfl, rfl⟩ := Prod.mk.inj (Option.some.inj h)
      exact ⟨[], t, rest, rfl, rfl, rfl, (find?_id_cons t rest id).trans (if_pos hid)⟩
    · rw [if_neg hid, Option.map_eq_some_iff] at h
      obtain ⟨⟨u', l''⟩, h, heq⟩ := h
      obtain ⟨rfl, rfl⟩ := Prod.mk.inj heq
      obtain ⟨pre, t', post, rfl, rfl, rfl, hfind⟩ := ih h
      refine ⟨t :: pre, t', post, rfl, rfl, rfl, ?_⟩
      rw [find?_id_cons, if_neg hid]
      exact hfind

/-- It changes the tasks in their places. -/
theorem forall₂_alterFirst {R : Task → Task → Prop} (hsame : ∀ t, R t t) {id : String}
    {f : Task → Task} {l l' : List Task} {u : Task} (h : alterFirst id f l = some (u, l'))
    (hf : ∀ t, l.find? (fun t => t.id == id) = some t → R t (f t)) : List.Forall₂ R l l' := by
  obtain ⟨pre, t, post, rfl, rfl, -, hfind⟩ := alterFirst_eq_some h
  have hall : ∀ l : List Task, List.Forall₂ R l l := fun l =>
    List.forall₂_same.mpr fun t _ => hsame t
  exact List.rel_append (hall pre) (.cons (hf t hfind) (hall post))

/-- Afterwards the id finds the changed task. -/
theorem find?_of_alterFirst {id : String} {f : Task → Task} {l l' : List Task} {u : Task}
    (h : alterFirst id f l = some (u, l')) (hu : u.id = id) :
    l'.find? (fun t => t.id == id) = some u := by
  induction l generalizing l' with
  | nil => cases h
  | cons t rest ih =>
    rw [alterFirst] at h
    by_cases hid : t.id = id
    · rw [if_pos hid] at h
      obtain ⟨rfl, rfl⟩ := Prod.mk.inj (Option.some.inj h)
      rw [find?_id_cons, if_pos hu]
    · rw [if_neg hid, Option.map_eq_some_iff] at h
      obtain ⟨⟨u', l''⟩, h, heq⟩ := h
      obtain ⟨rfl, rfl⟩ := Prod.mk.inj heq
      rw [find?_id_cons, if_neg hid]
      exact ih h

/-- In two lists whose tasks have the same ids in the same places an id finds the same place. -/
theorem exists_find?_of_forall₂ {R : Task → Task → Prop} (hid : ∀ t u, R t u → u.id = t.id)
    {l l' : List Task} (h : List.Forall₂ R l l') {id : String} {t : Task}
    (hfind : l.find? (fun t => t.id == id) = some t) :
    ∃ u, l'.find? (fun t => t.id == id) = some u ∧ R t u := by
  induction h with
  | nil => cases hfind
  | @cons t₀ u₀ _ _ ht _ ih =>
    rw [find?_id_cons] at hfind ⊢
    rw [hid t₀ u₀ ht]
    by_cases h : t₀.id = id
    · rw [if_pos h] at hfind ⊢
      obtain rfl := Option.some.inj hfind
      exact ⟨u₀, rfl, ht⟩
    · rw [if_neg h] at hfind ⊢
      exact ih hfind

theorem exists_alterFirst {id : String} (f : Task → Task) {l : List Task} {t : Task}
    (h : l.find? (fun t => t.id == id) = some t) : ∃ l', alterFirst id f l = some (f t, l') := by
  induction l with
  | nil => cases h
  | cons t' rest ih =>
    rw [find?_id_cons] at h
    rw [alterFirst]
    by_cases hid : t'.id = id
    · rw [if_pos hid] at h
      obtain rfl := Option.some.inj h
      exact ⟨f t' :: rest, if_pos hid⟩
    · rw [if_neg hid] at h
      obtain ⟨l', hl'⟩ := ih h
      rw [if_neg hid, hl']
      exact ⟨t' :: l', rfl⟩

/-- A change of the first task with an id is made in the first part of a list, or else in the
second. -/
theorem alterFirst_append (id : String) (f : Task → Task) (l l' : List Task) :
    alterFirst id f (l ++ l') =
      ((alterFirst id f l).map fun p => (p.1, p.2 ++ l')).or
        ((alterFirst id f l').map fun p => (p.1, l ++ p.2)) := by
  induction l with
  | nil => simp [alterFirst]
  | cons t rest ih =>
    rw [List.cons_append, alterFirst, alterFirst]
    by_cases hid : t.id = id
    · simp [hid]
    · simp only [if_neg hid, ih, Option.map_or, Option.map_map]
      rfl

theorem alterFirst_eq_none_iff {id : String} {f : Task → Task} {l : List Task} :
    alterFirst id f l = none ↔ ∀ t ∈ l, t.id ≠ id := by
  induction l with
  | nil => exact iff_of_true rfl (List.forall_mem_nil _)
  | cons t rest ih =>
    rw [alterFirst, List.forall_mem_cons, ← ih]
    by_cases hid : t.id = id
    · simp [hid]
    · simp [hid]

end Task

namespace Store

/-- The task that an id finds is the one that it finds in the task's own instance. -/
theorem find?_tasksOf {s : Store} {id : String} {t : Task} (h : s.task? id = some t) :
    (s.tasksOf t.instanceId).find? (fun t => t.id == id) = some t := by
  unfold task? at h
  unfold tasksOf
  generalize s.tasks = l at h
  induction l with
  | nil => cases h
  | cons u rest ih =>
    rw [Task.find?_id_cons] at h
    by_cases hid : u.id = id
    · rw [if_pos hid] at h
      obtain rfl := Option.some.inj h
      simp only [List.filter_cons, beq_self_eq_true, if_true]
      rw [Task.find?_id_cons, if_pos hid]
    · rw [if_neg hid] at h
      simp only [List.filter_cons]
      split
      · rw [Task.find?_id_cons, if_neg hid]
        exact ih h
      · exact ih h

/-- All tasks of an engine before and after, in their places. -/
def Settles (s s' : Store) : Prop := List.Forall₂ Task.Settles s.tasks s'.tasks

namespace Settles

variable {s s' s'' : Store}

theorem of_tasks_eq (h : s'.tasks = s.tasks) : s.Settles s' := by
  unfold Settles
  rw [h]
  exact List.forall₂_same.mpr fun t _ => .same

theorem refl (s : Store) : s.Settles s := of_tasks_eq rfl

/-- What is settled in two steps is settled. -/
theorem trans (h : s.Settles s') (h' : s'.Settles s'') : s.Settles s'' :=
  forall₂_trans (fun _ _ _ ht hu => ht.trans hu) h h'

/-- Every task is still there, as it was or closed. -/
theorem forth (h : s.Settles s') {t : Task} (ht : t ∈ s.tasks) :
    ∃ u ∈ s'.tasks, Task.Settles t u :=
  exists_of_mem_left h ht

/-- Every task was there before. -/
theorem back (h : s.Settles s') {u : Task} (hu : u ∈ s'.tasks) :
    ∃ t ∈ s.tasks, Task.Settles t u :=
  exists_of_mem_right h hu

/-- A finished task is still there, as it was. -/
theorem finished (h : s.Settles s') {t : Task} (ht : t ∈ s.tasks) (hfin : t.finished = true) :
    t ∈ s'.tasks := by
  obtain ⟨u, hu, hsettles⟩ := h.forth ht
  rwa [hsettles.eq_of_finished hfin] at hu

/-- An open task was there before, as it is. -/
theorem unfinished (h : s.Settles s') {u : Task} (hu : u ∈ s'.tasks) (hopen : u.finished = false) :
    u ∈ s.tasks := by
  obtain ⟨t, ht, hsettles⟩ := h.back hu
  rwa [← hsettles.eq_of_unfinished hopen] at ht

/-- The tasks of an instance settle too, in their places. -/
theorem tasksOf (h : s.Settles s') (inst : String) :
    List.Forall₂ Task.Settles (s.tasksOf inst) (s'.tasksOf inst) :=
  List.rel_filter (fun t u htu => by
    show (t.instanceId == inst) = true ↔ (u.instanceId == inst) = true
    rw [htu.origin.2.1]) h

/-- An id that finds a task in an instance goes on finding it, as it was or closed. -/
theorem exists_find? (h : s.Settles s') {inst id : String} {t : Task}
    (hfind : (s.tasksOf inst).find? (fun t => t.id == id) = some t) :
    ∃ u, (s'.tasksOf inst).find? (fun t => t.id == id) = some u ∧ Task.Settles t u :=
  Task.exists_find?_of_forall₂ (fun _ _ htu => htu.origin.1) (h.tasksOf inst) hfind

/-- **The task that an id finds in an instance is found unchanged for ever once it is finished.** -/
theorem current (h : s.Settles s') {inst id : String} {t : Task}
    (hfind : (s.tasksOf inst).find? (fun t => t.id == id) = some t) (hfin : t.finished = true) :
    (s'.tasksOf inst).find? (fun t => t.id == id) = some t := by
  obtain ⟨u, hu, hsettles⟩ := h.exists_find? hfind
  rwa [hsettles.eq_of_finished hfin] at hu

end Settles

/-! ## Requests -/

variable {s s' : Store}

/-- A change of the first task with an id settles tasks, if it settles that one. -/
theorem settles_alterFirst {id : String} {f : Task → Task} {u : Task} {l : List Task}
    (h : Task.alterFirst id f s.tasks = some (u, l))
    (hf : ∀ t, s.task? id = some t → Task.Settles t (f t)) :
    s.Settles { s with tasks := l } :=
  Task.forall₂_alterFirst (fun _ => .same) h hf

/-- Passing a task settles it. -/
theorem settles_passTask {id comment : String} (h : s.passTask id comment = .ok s') :
    s.Settles s' := by
  unfold passTask at h
  split at h
  · rename_i hl
    obtain rfl := Except.ok.inj h
    exact settles_alterFirst hl fun t _ => t.settles_pass comment
  · cases h

/-- So does a decision on an open task. -/
theorem settles_completeTask {id comment : String} {status : TaskStatus} {u : Task}
    (h : s.completeTask id status comment = .ok (u, s')) (hstatus : status ≠ .pending)
    (hopen : ∀ t, s.task? id = some t → t.finished = false) : s.Settles s' := by
  unfold completeTask at h
  split at h
  · rename_i hl
    obtain ⟨-, rfl⟩ := Prod.mk.inj (Except.ok.inj h)
    exact settles_alterFirst hl fun t ht => Task.settles_complete (hopen t ht) hstatus comment
  · cases h

theorem isOpenAt_iff {inst node : String} {batch : Option String} {t : Task} :
    isOpenAt inst node batch t = true ↔ t.instanceId = inst ∧ t.nodeId = node ∧
      t.finished = false ∧ (batch = none ∨ batch = some t.batch) := by
  unfold isOpenAt
  rw [Bool.and_eq_true, Bool.and_eq_true, Bool.and_eq_true, beq_iff_eq, beq_iff_eq, Bool.not_eq_true',
    Bool.or_eq_true, Option.isNone_iff_eq_none, beq_iff_eq, and_assoc, and_assoc]

/-- What closing the open tasks at a node does to one task. -/
def closeAt (inst node : String) (batch : Option String) (status : TaskStatus) (comment : String)
    (t : Task) : Task :=
  if isOpenAt inst node batch t then
    { t with status := status, finished := true, comment := comment }
  else t

theorem tasks_finishPending (s : Store) (inst node : String) (batch : Option String)
    (status : TaskStatus) (comment : String) :
    (s.finishPending inst node batch status comment).2.tasks =
      s.tasks.map (closeAt inst node batch status comment) := rfl

theorem settles_closeAt (inst node : String) (batch : Option String) (status : TaskStatus)
    (comment : String) (t : Task) : Task.Settles t (closeAt inst node batch status comment t) := by
  unfold closeAt
  split
  · rename_i h
    exact .closed status comment (isOpenAt_iff.mp h).2.2.1
  · exact .same

/-- So does closing the open tasks at a node. -/
theorem settles_finishPending (s : Store) (inst node : String) (batch : Option String)
    (status : TaskStatus) (comment : String) :
    s.Settles (s.finishPending inst node batch status comment).2 := by
  unfold Settles
  rw [tasks_finishPending]
  exact List.forall₂_map_right_iff.mpr (List.forall₂_same.mpr fun t _ => settles_closeAt ..)

end Store

end ApprovalFlow
