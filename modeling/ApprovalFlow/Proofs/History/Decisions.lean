import ApprovalFlow.Proofs.History.Moves

/-!
# Decisions and deliveries

While people work through their tasks two things happen, in any order: an approver decides an open
task, and the host delivers an event about a task that it stores. Here is what each of them does to
the engine.

- `Move.Decides`, `Move.Delivers`: the two sorts of moves.
- `Store.Decided`, `Move.Decides.after`: **a decision changes one task, which its id still finds**, and
  nothing else.
- `Move.Delivers.current_mem`: an event is judged by a stored task of its instance, whatever copy of
  it the event carries.
-/

namespace ApprovalFlow

namespace Move

/-- The move is a decision on an open task: an approver passes or rejects it. -/
structure Decides (s : Store) (m : Move) (t : Task) : Prop where
  found : s.task? t.id = some t
  unfinished : t.finished = false
  decision : (∃ comment, m = .call (.passTask t.id comment)) ∨
    ∃ status comment, (status = .passed ∨ status = .rejected) ∧
      m = .call (.completeTask t.id status comment)

/-- The move is the delivery of an event about a finished task that the engine stores. The event may
carry an old copy of the task. -/
def Delivers (s : Store) (m : Move) (e : EventName) (q : Task) : Prop :=
  m = .handle (.taskFinished e q) ∧ ∃ t ∈ s.tasks, t.id = q.id ∧ t.instanceId = q.instanceId

/-- The moves of approvers and of the host. -/
def Works (s : Store) (m : Move) : Prop :=
  (∃ t, m.Decides s t) ∨ ∃ e q, m.Delivers s e q

variable {s : Store} {m : Move} {t : Task}

/-- An event is judged by a stored task of its instance. -/
theorem Delivers.current_mem {e : EventName} {q : Task} (h : m.Delivers s e q) :
    (s.tasksOf q.instanceId).find? (fun u => u.id == q.id) = some (s.current q) :=
  Store.find?_current h.2

/-- A decision is no delivery. -/
theorem Decides.ne_handle (h : m.Decides s t) (event : EngineEvent) : m ≠ .handle event := by
  rintro rfl
  rcases h.decision with ⟨_, heq⟩ | ⟨_, _, _, heq⟩ <;> cases heq

theorem Decides.id_eq {id comment : String} {status : TaskStatus}
    (h : (call (.completeTask id status comment)).Decides s t) : id = t.id := by
  rcases h.decision with ⟨_, heq⟩ | ⟨_, _, _, heq⟩
  · cases heq
  · injection heq with heq
    injection heq

theorem Decides.fair (h : m.Decides s t) : m.Fair s := by
  rcases h.decision with ⟨comment, rfl⟩ | ⟨status, comment, hstatus, rfl⟩
  · trivial
  · refine ⟨?_, fun u hu => ?_⟩
    · rcases hstatus with rfl | rfl <;> exact nofun
    · obtain rfl := Option.some.inj (h.found.symm.trans hu)
      exact h.unfinished

theorem Works.fair (h : m.Works s) : m.Fair s := by
  rcases h with ⟨t, ht⟩ | ⟨e, q, rfl, -⟩
  · exact ht.fair
  · trivial

/-- A decision creates no task. -/
theorem Works.settles {hooks : HookEvent → Except FlowError Unit} {autoPass : AutoPassOptions}
    {dispatch : DispatchOptions} {d : Dispatcher Store} (h : m.Works d.engine) :
    d.engine.Settles (d.move (Store.wiring hooks autoPass dispatch) m).engine := by
  rcases Dispatcher.settles_move h.fair with hsettles | ⟨inst, node, batch, user, cosigned, rfl⟩
  · exact hsettles
  · rcases h with ⟨t, ht⟩ | ⟨e, q, hm, -⟩
    · rcases ht.decision with ⟨_, hm⟩ | ⟨_, _, _, hm⟩ <;> cases hm
    · cases hm

end Move

/-! ## What a decision changes -/

/-- The engine before and after a decision: one task is decided in its place. -/
structure Store.Decided (s s' : Store) (t u : Task) : Prop where
  decided : ∃ status comment, (status = .passed ∨ status = .rejected) ∧
    u = t.complete status comment
  /-- The id of the task finds it as it is now. -/
  found : s'.task? t.id = some u
  places : ∃ pre post, s.tasks = pre ++ t :: post ∧ s'.tasks = pre ++ u :: post
  closed : s'.closed = s.closed
  definitionFor? : ∀ inst, s'.definitionFor? inst = s.definitionFor? inst

namespace Store.Decided

variable {s s' : Store} {t u : Task}

theorem mem_before (h : s.Decided s' t u) : t ∈ s.tasks := by
  obtain ⟨pre, post, hpre, -⟩ := h.places
  rw [hpre]
  exact List.mem_append_right _ List.mem_cons_self

theorem mem_after (h : s.Decided s' t u) : u ∈ s'.tasks := by
  obtain ⟨pre, post, -, hpost⟩ := h.places
  rw [hpost]
  exact List.mem_append_right _ List.mem_cons_self

/-- Every task afterwards was there before, but for the one that was decided. -/
theorem eq_or_mem (h : s.Decided s' t u) {x : Task} (hx : x ∈ s'.tasks) : x = u ∨ x ∈ s.tasks := by
  obtain ⟨pre, post, hpre, hpost⟩ := h.places
  rw [hpost] at hx
  rw [hpre]
  rcases List.mem_append.mp hx with hx | hx
  · exact .inr (List.mem_append_left _ hx)
  · rcases List.mem_cons.mp hx with rfl | hx
    · exact .inl rfl
    · exact .inr (List.mem_append_right _ (List.mem_cons_of_mem _ hx))

/-- The decided task is still the same task at the same place, and now it is finished. -/
theorem origin (h : s.Decided s' t u) :
    u.id = t.id ∧ u.instanceId = t.instanceId ∧ u.nodeId = t.nodeId ∧ u.finished = true := by
  obtain ⟨status, comment, hstatus, rfl⟩ := h.decided
  rcases hstatus with rfl | rfl <;> exact ⟨rfl, rfl, rfl, rfl⟩

/-- A decision leaves the tasks at another node or of another instance alone. -/
theorem tasksAt_eq (h : s.Decided s' t u) {inst node : String}
    (hother : ¬ (t.instanceId = inst ∧ t.nodeId = node)) :
    s'.tasksAt inst node = s.tasksAt inst node := by
  obtain ⟨pre, post, hpre, hpost⟩ := h.places
  obtain ⟨-, hinst, hnode, -⟩ := h.origin
  have ht : ¬ (t.instanceId == inst && t.nodeId == node) = true := by
    rw [Bool.and_eq_true, beq_iff_eq, beq_iff_eq]
    exact hother
  have hu : ¬ (u.instanceId == inst && u.nodeId == node) = true := by
    rw [hinst, hnode]
    exact ht
  unfold tasksAt
  rw [hpre, hpost, List.filter_append, List.filter_append, List.filter_cons, List.filter_cons,
    if_neg ht, if_neg hu]

end Store.Decided

/-- Changing the first task with an id decides it, if that is what the change does to it. -/
theorem Store.decided_alterFirst {s : Store} {t : Task} (hfound : s.task? t.id = some t)
    {f : Task → Task} {status : TaskStatus} {comment : String}
    (hstatus : status = .passed ∨ status = .rejected) (hf : f t = t.complete status comment) :
    ∃ l, Task.alterFirst t.id f s.tasks = some (f t, l) ∧
      s.Decided { s with tasks := l } t (f t) := by
  obtain ⟨l, hl⟩ := Task.exists_alterFirst f hfound
  obtain ⟨pre, t', post, hpre, hpost, -, hfind⟩ := Task.alterFirst_eq_some hl
  obtain rfl := Option.some.inj (hfound.symm.trans hfind)
  have hid : (f t).id = t.id := by
    rw [hf]
    rfl
  exact ⟨l, hl, ⟨status, comment, hstatus, hf⟩, Task.find?_of_alterFirst hl hid,
    ⟨pre, post, hpre, hpost⟩, rfl, fun _ => rfl⟩

/-- **A decision changes one task and nothing else.** -/
theorem Move.Decides.after {d : Dispatcher Store} {m : Move} {t : Task}
    (h : m.Decides d.engine t) (w : Wiring Store) :
    ∃ u, d.engine.Decided (d.move w m).engine t u := by
  rcases h.decision with ⟨comment, rfl⟩ | ⟨status, comment, hstatus, rfl⟩
  · have hpass : t.pass comment = t.complete .passed comment := by
      unfold Task.pass
      rw [h.unfinished]
      rfl
    obtain ⟨l, hl, hdecided⟩ := Store.decided_alterFirst h.found (.inl rfl) hpass
    refine ⟨t.pass comment, ?_⟩
    show d.engine.Decided ((d.engine.passTask t.id comment).toOption.getD d.engine) t _
    unfold Store.passTask
    rw [hl]
    exact hdecided
  · obtain ⟨l, hl, hdecided⟩ := Store.decided_alterFirst h.found hstatus
      (rfl : t.complete status comment = t.complete status comment)
    refine ⟨t.complete status comment, ?_⟩
    show d.engine.Decided
      (((d.engine.completeTask t.id status comment).toOption.map (·.2)).getD d.engine) t _
    unfold Store.completeTask
    rw [hl]
    exact hdecided

/-- Neither decisions nor deliveries touch definitions and instances. -/
theorem Move.Works.definitionFor? {hooks : HookEvent → Except FlowError Unit}
    {autoPass : AutoPassOptions} {dispatch : DispatchOptions} {d : Dispatcher Store} {m : Move}
    (h : m.Works d.engine) (inst : String) :
    (d.move (Store.wiring hooks autoPass dispatch) m).engine.definitionFor? inst =
      d.engine.definitionFor? inst := by
  rcases h with ⟨t, ht⟩ | ⟨e, q, rfl, -⟩
  · obtain ⟨u, hdecided⟩ := ht.after (Store.wiring hooks autoPass dispatch)
    exact hdecided.definitionFor? inst
  · rw [Dispatcher.engine_move_handle]
    exact Store.definitionFor?_foldl_obey inst

end ApprovalFlow
