import ApprovalFlow.Proofs.History.Outcomes

/-!
# Instances that run side by side

All instances share one list of tasks and one log, and a poll passes a task by its id, not by its
instance. Still no instance notices the others. What belongs to an instance is a view of the engine:
a step for the instance reads and writes nothing outside the view, and a step for another leaves the
view as it is. For polls this takes that ids of tasks differ.

- `Step`: an event is handled, or a node is polled once.
- `Store.View`, `Store.view`: what an instance has of an engine.
- `Store.view_step_congr`: a step for the instance goes by its view.
- `Store.view_step_other`: a step for another instance leaves the view alone.
- `Dispatcher.view_steps`: the view after some steps is that after the steps for the instance.
- `Dispatcher.instances_apart`: **the tasks and the closed branches of an instance are what they
  would be if it ran alone.**
-/

namespace ApprovalFlow

/-- What is done for an instance: an event of it is handled, or a node of it is polled once. -/
inductive Step where
  | handle (event : EngineEvent)
  | poll (comment instanceId nodeId : String)
  deriving DecidableEq

/-- The instance that a step is for. -/
def Step.instanceId : Step → String
  | .handle event => event.instanceId
  | .poll _ inst _ => inst

/-! ## Tasks with different ids -/

/-- If ids differ, changing the first task with an id is changing the task with the id. -/
theorem Task.alterFirst_eq_map {l : List Task} (hids : (l.map (·.id)).Nodup) (f : Task → Task)
    {t : Task} (ht : t ∈ l) :
    alterFirst t.id f l = some (f t, l.map fun u => if u.id = t.id then f u else u) := by
  induction l with
  | nil => cases ht
  | cons u rest ih =>
    obtain ⟨hnot, hrest⟩ := List.nodup_cons.mp hids
    rw [alterFirst]
    rcases List.mem_cons.mp ht with rfl | ht
    · -- none of the others has the id
      have hsame : (rest.map fun v => if v.id = t.id then f v else v) = rest := by
        refine (List.map_congr_left fun v hv => ?_).trans (List.map_id _)
        exact if_neg fun hid => hnot (List.mem_map.mpr ⟨v, hv, hid⟩)
      rw [if_pos rfl, List.map_cons, if_pos rfl, hsame]
    · have hne : u.id ≠ t.id := fun hid => hnot (List.mem_map.mpr ⟨t, ht, hid.symm⟩)
      rw [if_neg hne, ih hrest ht, List.map_cons, if_neg hne]
      rfl

namespace Store

variable {s s' : Store} {inst inst' : String}

/-- Tasks that settle keep their ids. -/
theorem Settles.ids_eq (h : s.Settles s') : s'.tasks.map (·.id) = s.tasks.map (·.id) := by
  unfold Settles at h
  generalize s.tasks = l, s'.tasks = l' at h
  induction h with
  | nil => rfl
  | cons ht _ ih => rw [List.map_cons, List.map_cons, ih, ht.origin.1]

/-! ## Views -/

/-- The branches that were closed in an instance. -/
def closedOf (s : Store) (inst : String) : List ClosedBranch :=
  s.closed.filter fun b => b.instanceId == inst

/-- What belongs to an instance. -/
structure View where
  definition : Option ProcessDefinition
  tasks : List Task
  closed : List ClosedBranch

/-- What an instance has of an engine. -/
def view (inst : String) (s : Store) : View :=
  ⟨s.definitionFor? inst, s.tasksOf inst, s.closedOf inst⟩

theorem view_eq_iff :
    s.view inst = s'.view inst ↔ s.definitionFor? inst = s'.definitionFor? inst ∧
      s.tasksOf inst = s'.tasksOf inst ∧ s.closedOf inst = s'.closedOf inst :=
  View.mk.injEq .. ▸ Iff.rfl

/-- What changes each task by itself changes the tasks of an instance by themselves. -/
theorem tasksOf_map {f : Task → Task} (hf : ∀ t, (f t).instanceId = t.instanceId) (inst : String)
    (s : Store) : tasksOf { s with tasks := s.tasks.map f } inst = (s.tasksOf inst).map f := by
  unfold tasksOf
  rw [List.filter_map]
  refine congrArg _ (List.filter_congr fun t _ => ?_)
  rw [Function.comp_apply, hf]

/-- The tasks of an instance at a node are among the tasks of the instance. -/
theorem tasksAt_eq (s : Store) (inst node : String) :
    s.tasksAt inst node = (s.tasksOf inst).filter fun t => t.nodeId == node := by
  unfold tasksAt tasksOf
  rw [List.filter_filter]
  exact List.filter_congr fun t _ => Bool.and_comm ..

/-! ## Obeying, seen from an instance -/

/-- A command for an instance goes by the view of the instance. -/
theorem view_obey_congr (h : s.view inst = s'.view inst) (c : Command) :
    (s.obey inst c).view inst = (s'.obey inst c).view inst := by
  obtain ⟨hdefinition, htasks, hclosed⟩ := view_eq_iff.mp h
  cases c with
  | closeBranch gateway predecessor outcome comment =>
    refine view_eq_iff.mpr ⟨hdefinition, htasks, ?_⟩
    unfold closedOf at hclosed ⊢
    show List.filter _ (s.closed ++ _) = List.filter _ (s'.closed ++ _)
    rw [List.filter_append, List.filter_append, hclosed]
  | finishPending node batch status comment =>
    have hinst : ∀ t, (closeAt inst node batch status comment t).instanceId = t.instanceId :=
      fun t => (settles_closeAt inst node batch status comment t).origin.2.1
    refine view_eq_iff.mpr ⟨hdefinition, ?_, hclosed⟩
    refine (tasksOf_map hinst inst s).trans (Eq.trans ?_ (tasksOf_map hinst inst s').symm)
    rw [htasks]
  | spawnAutoPass node => exact h
  | forward event => exact h

/-- A command for another instance leaves the view alone. -/
theorem view_obey_other (hne : inst' ≠ inst) (s : Store) (c : Command) :
    (s.obey inst' c).view inst = s.view inst := by
  cases c with
  | closeBranch gateway predecessor outcome comment =>
    refine view_eq_iff.mpr ⟨rfl, rfl, ?_⟩
    unfold closedOf
    show List.filter _ (s.closed ++ _) = _
    rw [List.filter_append, List.filter_cons_of_neg (by simpa using hne), List.filter_nil,
      List.append_nil]
  | finishPending node batch status comment =>
    have hinst : ∀ t, (closeAt inst' node batch status comment t).instanceId = t.instanceId :=
      fun t => (settles_closeAt inst' node batch status comment t).origin.2.1
    refine view_eq_iff.mpr ⟨rfl, (tasksOf_map hinst inst s).trans ?_, rfl⟩
    refine (List.map_congr_left fun t ht => ?_).trans (List.map_id _)
    have hown : t.instanceId = inst := beq_iff_eq.mp (List.mem_filter.mp ht).2
    exact if_neg fun hopen => hne ((isOpenAt_iff.mp hopen).1.symm.trans hown)
  | spawnAutoPass node => rfl
  | forward event => rfl

theorem view_foldl_obey_congr (h : s.view inst = s'.view inst) (commands : List Command) :
    (commands.foldl (obey inst) s).view inst = (commands.foldl (obey inst) s').view inst := by
  induction commands generalizing s s' with
  | nil => exact h
  | cons c rest ih => exact ih (view_obey_congr h c)

theorem view_foldl_obey_other (hne : inst' ≠ inst) (s : Store) (commands : List Command) :
    (commands.foldl (obey inst') s).view inst = s.view inst := by
  induction commands generalizing s with
  | nil => rfl
  | cons c rest ih => exact (ih (s.obey inst' c)).trans (view_obey_other hne s c)

/-- What an event leads to is decided by the view of its instance. -/
theorem commands_of_view_eq {event : EngineEvent}
    (h : s.view event.instanceId = s'.view event.instanceId) (o : DispatchOptions) :
    s.commands o event = s'.commands o event := by
  obtain ⟨hdefinition, htasks, -⟩ := view_eq_iff.mp h
  exact commands_congr hdefinition htasks o

/-! ## Polls, seen from an instance -/

/-- The engine after a poll. -/
def polled (comment inst node : String) (s : Store) : Store := (look engine comment inst node s).2

/-- What a poll does to the tasks, if it finds one with the id. -/
def passId (comment id : String) (t : Task) : Task := if t.id = id then t.pass comment else t

theorem instanceId_passId (comment id : String) (t : Task) :
    (passId comment id t).instanceId = t.instanceId := by
  unfold passId
  split
  · exact (t.settles_pass comment).origin.2.1
  · rfl

/-- If ids differ, a poll passes the first open task at the node and does nothing else. -/
theorem polled_eq (hids : (s.tasks.map (·.id)).Nodup) (comment inst node : String) :
    s.polled comment inst node =
      match (s.tasksAt inst node).find? fun t => !t.finished with
      | none => s
      | some t => { s with tasks := s.tasks.map (passId comment t.id) } := by
  unfold polled look engine
  dsimp only
  cases hfind : (s.tasksAt inst node).find? fun t => !t.finished with
  | none => rfl
  | some t =>
    have ht : t ∈ s.tasks := (List.mem_filter.mp (List.mem_of_find?_eq_some hfind)).1
    dsimp only
    unfold passTask
    rw [Task.alterFirst_eq_map hids (Task.pass comment) ht]
    rfl

/-- A poll for an instance goes by the view of the instance. -/
theorem view_polled_congr (hids : (s.tasks.map (·.id)).Nodup) (hids' : (s'.tasks.map (·.id)).Nodup)
    (h : s.view inst = s'.view inst) (comment node : String) :
    (s.polled comment inst node).view inst = (s'.polled comment inst node).view inst := by
  obtain ⟨hdefinition, htasks, hclosed⟩ := view_eq_iff.mp h
  rw [polled_eq hids, polled_eq hids', tasksAt_eq, tasksAt_eq, htasks]
  split
  · exact h
  · rename_i t _
    refine view_eq_iff.mpr ⟨hdefinition, ?_, hclosed⟩
    rw [tasksOf_map (instanceId_passId comment t.id), tasksOf_map (instanceId_passId comment t.id),
      htasks]

/-- A poll for another instance leaves the view alone. -/
theorem view_polled_other (hids : (s.tasks.map (·.id)).Nodup) (hne : inst' ≠ inst)
    (comment node : String) : (s.polled comment inst' node).view inst = s.view inst := by
  rw [polled_eq hids]
  split
  · rfl
  · rename_i t hfind
    obtain ⟨ht, hat⟩ := List.mem_filter.mp (List.mem_of_find?_eq_some hfind)
    rw [Bool.and_eq_true, beq_iff_eq] at hat
    refine view_eq_iff.mpr ⟨rfl, (tasksOf_map (instanceId_passId comment t.id) inst s).trans ?_, rfl⟩
    refine (List.map_congr_left fun u hu => ?_).trans (List.map_id _)
    obtain ⟨hu, hown⟩ := List.mem_filter.mp hu
    -- the task with the id is of the other instance
    refine if_neg fun hid => hne ?_
    obtain rfl := List.inj_on_of_nodup_map hids hu ht hid
    exact hat.1.symm.trans (beq_iff_eq.mp hown)

/-! ## Steps -/

/-- The engine after a step. -/
def step (o : DispatchOptions) (s : Store) : Step → Store
  | .handle event => s.heed o event
  | .poll comment inst node => s.polled comment inst node

theorem settles_step (o : DispatchOptions) (s : Store) (x : Step) : s.Settles (s.step o x) := by
  cases x with
  | handle event => exact settles_foldl_obey ..
  | poll comment inst node => exact settles_look comment inst node s

/-- **A step for an instance goes by the view of the instance.** -/
theorem view_step_congr {x : Step} (hids : (s.tasks.map (·.id)).Nodup)
    (hids' : (s'.tasks.map (·.id)).Nodup) (h : s.view x.instanceId = s'.view x.instanceId)
    (o : DispatchOptions) : (s.step o x).view x.instanceId = (s'.step o x).view x.instanceId := by
  cases x with
  | handle event =>
    unfold step heed
    dsimp only
    rw [commands_of_view_eq h]
    exact view_foldl_obey_congr h _
  | poll comment inst node => exact view_polled_congr hids hids' h comment node

/-- **A step for another instance leaves the view alone.** -/
theorem view_step_other {x : Step} (hids : (s.tasks.map (·.id)).Nodup)
    (hne : x.instanceId ≠ inst) (o : DispatchOptions) :
    (s.step o x).view inst = s.view inst := by
  cases x with
  | handle event => exact view_foldl_obey_other hne s _
  | poll comment inst' node => exact view_polled_other hids hne comment node

end Store

namespace Dispatcher

variable {hooks : HookEvent → Except FlowError Unit} {autoPass : AutoPassOptions}
  {dispatch : DispatchOptions} {d d' : Dispatcher Store}

/-- The state after a step. A step that fails is made all the same. -/
def step (w : Wiring Store) (d : Dispatcher Store) : Step → Dispatcher Store
  | .handle event => after (handle w event) d
  | .poll comment inst node => { d with engine := (look w.engine comment inst node d.engine).2 }

/-- The state after some steps. -/
def steps (w : Wiring Store) (d : Dispatcher Store) (l : List Step) : Dispatcher Store :=
  l.foldl (step w) d

theorem engine_step (d : Dispatcher Store) (x : Step) :
    (d.step (Store.wiring hooks autoPass dispatch) x).engine = d.engine.step dispatch x := by
  cases x with
  | handle event => exact engine_heed event d
  | poll comment inst node => rfl

/-- **What an instance has after some steps is what it has after those of them that are for it**,
also if these begin at another state in which it has the same. -/
theorem view_steps (hids : (d.engine.tasks.map (·.id)).Nodup)
    (hids' : (d'.engine.tasks.map (·.id)).Nodup) {inst : String}
    (h : d.engine.view inst = d'.engine.view inst) (l : List Step) :
    (d.steps (Store.wiring hooks autoPass dispatch) l).engine.view inst =
      (d'.steps (Store.wiring hooks autoPass dispatch)
        (l.filter fun x => x.instanceId == inst)).engine.view inst := by
  induction l generalizing d d' with
  | nil => exact h
  | cons x rest ih =>
    have hnodup : ∀ {d : Dispatcher Store}, (d.engine.tasks.map (·.id)).Nodup →
        ((d.step (Store.wiring hooks autoPass dispatch) x).engine.tasks.map (·.id)).Nodup := by
      intro d hids
      rw [engine_step, (Store.settles_step dispatch d.engine x).ids_eq]
      exact hids
    by_cases hown : x.instanceId = inst
    · have hfilter : (x :: rest).filter (fun x => x.instanceId == inst) =
          x :: rest.filter fun x => x.instanceId == inst :=
        List.filter_cons_of_pos (beq_iff_eq.mpr hown)
      rw [hfilter]
      refine ih (hnodup hids) (hnodup hids') ?_
      rw [engine_step, engine_step]
      subst hown
      exact Store.view_step_congr hids hids' h dispatch
    · have hfilter : (x :: rest).filter (fun x => x.instanceId == inst) =
          rest.filter fun x => x.instanceId == inst :=
        List.filter_cons_of_neg fun heq => hown (beq_iff_eq.mp heq)
      rw [hfilter]
      refine ih (hnodup hids) hids' ?_
      rw [engine_step]
      exact (Store.view_step_other hids hown dispatch).trans h

/-- **The tasks and the closed branches of an instance are what they would be if it ran alone**,
if ids of tasks differ. -/
theorem instances_apart (hooks : HookEvent → Except FlowError Unit) (autoPass : AutoPassOptions)
    (dispatch : DispatchOptions) (hids : (d.engine.tasks.map (·.id)).Nodup) (l : List Step)
    (inst : String) :
    let w := Store.wiring hooks autoPass dispatch
    let together := (d.steps w l).engine
    let alone := (d.steps w (l.filter fun x => x.instanceId == inst)).engine
    together.tasksOf inst = alone.tasksOf inst ∧ together.closedOf inst = alone.closedOf inst := by
  intro w together alone
  have hview : together.view inst = alone.view inst := view_steps hids hids rfl l
  exact (Store.view_eq_iff.mp hview).2

/-- Beside the two approvers a third one works for another instance. -/
def besideAgreement : List Move :=
  agreement.take 5 ++
    [.call (.startInstance "proc-1"), .call (.createTask "inst-2" "U" "b" "eve" false)]

/-- The branch of the first instance is closed as if the task of the second had never been passed. -/
theorem instances_apart_agreement :
    let w := Store.wiring (fun _ => .ok ()) {} {}
    let d := initial.play w besideAgreement
    let close := Step.handle (.taskFinished .taskParallelPass (bothTasks "task-1" "ann"))
    let pass := Step.poll "by system" "inst-2" "U"
    (d.engine.tasks.map (·.id)).Nodup ∧
      (d.steps w [pass, close, pass]).engine.tasksOf "inst-1" =
        (d.steps w [close]).engine.tasksOf "inst-1" ∧
      (d.steps w [pass, close, pass]).engine.closedOf "inst-1" =
        (d.steps w [close]).engine.closedOf "inst-1" := by
  intro w d close pass
  have hids : (d.engine.tasks.map (·.id)).Nodup := by decide
  exact ⟨hids, instances_apart (fun _ => .ok ()) {} {} hids [pass, close, pass] "inst-1"⟩

-- Where two tasks have one id, a poll for the instance of the second passes the first.
example :
    let first : Task := ⟨"task-1", "inst-1", "U", "b", "ann", .pending, false, false, ""⟩
    let s : Store := { tasks := [first, { first with instanceId := "inst-2" }] }
    (s.polled "by system" "inst-2" "U").tasksOf "inst-1" ≠ s.tasksOf "inst-1" := by decide

end Dispatcher

end ApprovalFlow
