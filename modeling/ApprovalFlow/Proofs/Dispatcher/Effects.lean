import ApprovalFlow.Dispatcher.Basic
import ApprovalFlow.Proofs.Dispatch.Commands
import ApprovalFlow.Proofs.Engine.Settling

/-!
# What handling an event does to an engine in memory

An engine in memory fails no command, but whoever takes the events handed on may, and may take its
time. Still the engine's state after an event is determined but for what is done in that time:
commands that change the engine never stand beside others, so either all of them are carried out, or
there is none to be missed.

- `Store.serving`, `Store.wiring`: serving an engine in memory, with any hooks and with hooks that
  answer at once.
- `Store.obey`: a command as a change of the engine.
- `Store.commands`, `Store.commands_alone`: the commands that an event leads to.
- `Store.heed`: the engine that has obeyed them.
- `Task.Obeys`, `Store.forall₂_foldl_obey`: what obeying does to each task.
- `Store.closed_foldl_obey`, `Store.tasksAt_foldl_obey`, `Store.finished_of_finishPending`: what it
  does to the log, to the tasks at a node, and to those whose node a command is about.
- `Dispatcher.after_executeAll`, `Dispatcher.after_handle`: what every command preserves an event
  preserves, whether or not it fails.
- `Dispatcher.engine_after_handle`: **after an event the engine has obeyed all its commands**, whether
  or not the event failed, if hooks answer at once.
- `Dispatcher.after_handle_slow`: **a hook that takes its time is as good as one that answers at once
  and does its work afterwards.**
-/

namespace ApprovalFlow

namespace Store

/-- What a dispatcher works with that serves an engine in memory, whatever the hooks do. -/
def serving (hooks : HookEvent → EStateM FlowError (Dispatcher Store) Unit)
    (autoPass : AutoPassOptions) (dispatch : DispatchOptions) : Wiring Store :=
  ⟨engine, hooks, autoPass, dispatch⟩

/-- The same with hooks that answer at once. What runs and others do while a slower hook is waited
for may as well be done after the event (`Dispatcher.after_handle_slow`). -/
@[reducible]
def wiring (hooks : HookEvent → Except FlowError Unit) (autoPass : AutoPassOptions)
    (dispatch : DispatchOptions) : Wiring Store :=
  serving (Dispatcher.atOnce hooks) autoPass dispatch

/-- What a command for an instance does to an engine in memory. -/
def obey (inst : String) (s : Store) : Command → Store
  | .closeBranch gateway predecessor outcome comment =>
    s.closeBranch inst gateway predecessor outcome comment
  | .finishPending node batch status comment => (s.finishPending inst node batch status comment).2
  | .spawnAutoPass _ | .forward _ => s

/-- The tasks that the decision about an event looks at: none for the events of nodes. -/
def tasksFor (s : Store) : EngineEvent → List Task
  | .taskFinished _ t => s.tasksOf t.instanceId
  | .nodeStarted .. | .nodeEnded .. => []

/-- The commands that an event leads to: none for an instance that does not exist. -/
def commands (s : Store) (o : DispatchOptions) (event : EngineEvent) : List Command :=
  match s.definitionFor? event.instanceId with
  | some p => commandsFor event (.ofParts p.table (s.tasksFor event)) o
  | none => []

/-- The engine after an event: it has obeyed the commands that the event leads to. -/
def heed (o : DispatchOptions) (s : Store) (event : EngineEvent) : Store :=
  (s.commands o event).foldl (obey event.instanceId) s

/-- The engine's copy of a task, or the task itself if it has none. -/
def current (s : Store) (t : Task) : Task :=
  ((s.tasksOf t.instanceId).find? fun u => u.id == t.id).getD t

variable {s : Store} {inst : String} {commands : List Command}

/-- The engine's copy of a task is the one that its id finds. -/
theorem current_eq {q t : Task}
    (h : (s.tasksOf q.instanceId).find? (fun u => u.id == q.id) = some t) : s.current q = t := by
  unfold current
  rw [h]
  rfl

/-- If the engine has a task with the id in the instance, the id finds one. -/
theorem find?_current {q : Task} (h : ∃ t ∈ s.tasks, t.id = q.id ∧ t.instanceId = q.instanceId) :
    (s.tasksOf q.instanceId).find? (fun u => u.id == q.id) = some (s.current q) := by
  obtain ⟨t, ht, hid, hinst⟩ := h
  exact Snapshot.find?_current .empty ⟨t, List.mem_filter.mpr ⟨ht, beq_iff_eq.mpr hinst⟩, hid⟩

theorem commands_taskFinished {p : ProcessDefinition} {q : Task}
    (hp : s.definitionFor? q.instanceId = some p) (o : DispatchOptions) (e : EventName) :
    s.commands o (.taskFinished e q) =
      decideTaskFinished e (s.current q) (.ofParts p.table (s.tasksOf q.instanceId)) o := by
  unfold Store.commands
  show (match s.definitionFor? q.instanceId with | some p => _ | none => _) = _
  rw [hp]
  rfl

theorem commands_of_unknown (event : EngineEvent)
    (h : s.definitionFor? event.instanceId = none) (o : DispatchOptions) :
    s.commands o event = [] := by
  unfold Store.commands
  rw [h]

/-- What an event leads to is decided by the definition and the tasks of its instance. -/
theorem commands_congr {s' : Store} {event : EngineEvent}
    (hdefinition : s'.definitionFor? event.instanceId = s.definitionFor? event.instanceId)
    (htasks : s'.tasksOf event.instanceId = s.tasksOf event.instanceId) (o : DispatchOptions) :
    s'.commands o event = s.commands o event := by
  have htasks : s'.tasksFor event = s.tasksFor event := by
    cases event with
    | taskFinished e t => exact htasks
    | nodeStarted | nodeEnded => rfl
  unfold Store.commands
  rw [hdefinition, htasks]

/-- The commands of an event change the engine, or else it is handed on, by itself or right behind
the start of a run. -/
theorem commands_alone (s : Store) (o : DispatchOptions) (event : EngineEvent) :
    (∀ c ∈ s.commands o event, c.touches = true) ∨
      (∃ h, s.commands o event = [.forward h]) ∨
      ∃ node h, s.commands o event = [.spawnAutoPass node, .forward h] := by
  unfold Store.commands
  cases s.definitionFor? event.instanceId with
  | none => exact .inl (List.forall_mem_nil _)
  | some p => exact commandsFor_alone event _ o

/-- So either all of them change the engine, or none does. -/
theorem commands_touches (s : Store) (o : DispatchOptions) (event : EngineEvent) :
    (∀ c ∈ s.commands o event, c.touches = true) ∨
      ∀ c ∈ s.commands o event, c.touches = false := by
  rcases commands_alone s o event with hall | ⟨h, hcommands⟩ | ⟨node, h, hcommands⟩
  · exact .inl hall
  · rw [hcommands]
    exact .inr (List.forall_mem_singleton.mpr rfl)
  · rw [hcommands]
    exact .inr (List.forall_mem_cons.mpr ⟨rfl, List.forall_mem_singleton.mpr rfl⟩)

/-- Open tasks are closed with a status that says that it was the system. -/
theorem status_of_finishPending_mem {event : EngineEvent} {o : DispatchOptions}
    {node comment : String} {batch : Option String} {status : TaskStatus}
    (h : .finishPending node batch status comment ∈ s.commands o event) :
    ∃ outcome : BranchOutcome, status = outcome.taskStatus := by
  unfold Store.commands at h
  split at h
  · exact ApprovalFlow.status_of_finishPending_mem h
  · cases h

end Store

/-! ## Obeying -/

/-- A task before and after some commands: it is as it was, or one of them closed it. -/
inductive Task.Obeys (commands : List Command) (t : Task) : Task → Prop where
  | same : Obeys commands t t
  | closed {node : String} {batch : Option String} {status : TaskStatus} {comment : String}
      (hmem : .finishPending node batch status comment ∈ commands) (hopen : t.finished = false) :
      Obeys commands t { t with status := status, finished := true, comment := comment }

namespace Task.Obeys

variable {c : Command} {commands : List Command} {t u v : Task}

theorem settles (h : Obeys commands t u) : Settles t u := by
  cases h with
  | same => exact .same
  | closed _ hopen => exact .closed _ _ hopen

/-- Once it is closed, further commands leave a task alone. -/
theorem cons (h : Obeys [c] t u) (h' : Obeys commands u v) : Obeys (c :: commands) t v := by
  cases h with
  | same =>
    cases h' with
    | same => exact .same
    | closed hmem hopen => exact .closed (List.mem_cons_of_mem _ hmem) hopen
  | closed hmem hopen =>
    cases h' with
    | same => exact .closed (List.mem_cons.mpr (.inl (List.mem_singleton.mp hmem))) hopen
    | closed _ hopen' => cases hopen'

end Task.Obeys

namespace Store

variable {s : Store} {inst : String} {commands : List Command}

/-- A command treats all tasks alike. -/
theorem exists_map_obey (inst : String) (s : Store) (c : Command) :
    ∃ f, (s.obey inst c).tasks = s.tasks.map f ∧ ∀ t, Task.Obeys [c] t (f t) := by
  cases c with
  | finishPending node batch status comment =>
    refine ⟨closeAt inst node batch status comment, rfl, fun t => ?_⟩
    unfold closeAt
    split
    · rename_i h
      exact .closed (List.mem_singleton_self _) (isOpenAt_iff.mp h).2.2.1
    · exact .same
  | closeBranch gateway predecessor outcome comment =>
    exact ⟨id, (List.map_id _).symm, fun t => .same⟩
  | spawnAutoPass node => exact ⟨id, (List.map_id _).symm, fun t => .same⟩
  | forward event => exact ⟨id, (List.map_id _).symm, fun t => .same⟩

/-- So do some commands, one after the other. -/
theorem exists_map_foldl_obey (inst : String) (s : Store) (commands : List Command) :
    ∃ f, (commands.foldl (obey inst) s).tasks = s.tasks.map f ∧
      ∀ t, Task.Obeys commands t (f t) := by
  induction commands generalizing s with
  | nil => exact ⟨id, (List.map_id _).symm, fun t => .same⟩
  | cons c rest ih =>
    obtain ⟨f, hf, hfirst⟩ := exists_map_obey inst s c
    obtain ⟨g, hg, hrest⟩ := ih (s.obey inst c)
    refine ⟨g ∘ f, ?_, fun t => (hfirst t).cons (hrest (f t))⟩
    rw [List.foldl_cons, hg, hf, List.map_map]

/-- **Obeying leaves every task in its place, as it was or closed by a command.** -/
theorem forall₂_foldl_obey (inst : String) (s : Store) (commands : List Command) :
    List.Forall₂ (Task.Obeys commands) s.tasks (commands.foldl (obey inst) s).tasks := by
  obtain ⟨f, hf, hobeys⟩ := exists_map_foldl_obey inst s commands
  rw [hf]
  exact List.forall₂_map_right_iff.mpr (List.forall₂_same.mpr fun t _ => hobeys t)

/-- Obeying settles tasks. -/
theorem settles_foldl_obey (inst : String) (commands : List Command) (s : Store) :
    s.Settles (commands.foldl (obey inst) s) :=
  (forall₂_foldl_obey inst s commands).imp fun _ _ h => h.settles

/-- Every task was there before, or a command gave it its status. -/
theorem mem_tasks_foldl_obey {t : Task} (h : t ∈ (commands.foldl (obey inst) s).tasks) :
    t ∈ s.tasks ∨ ∃ node batch comment, .finishPending node batch t.status comment ∈ commands := by
  obtain ⟨f, hf, hobeys⟩ := exists_map_foldl_obey inst s commands
  rw [hf] at h
  obtain ⟨u, hu, rfl⟩ := List.mem_map.mp h
  have ht := hobeys u
  generalize f u = t at ht
  cases ht with
  | same => exact .inl hu
  | closed hmem _ => exact .inr ⟨_, _, _, hmem⟩

/-- No task becomes pending or rejected by an event. -/
theorem mem_tasks_heed {o : DispatchOptions} {event : EngineEvent} {t : Task}
    (h : t ∈ (s.heed o event).tasks) (hstatus : t.status = .pending ∨ t.status = .rejected) :
    t ∈ s.tasks := by
  rcases mem_tasks_foldl_obey h with ht | ⟨node, batch, comment, hmem⟩
  · exact ht
  · obtain ⟨outcome, hsystem⟩ := status_of_finishPending_mem hmem
    have hne := outcome.taskStatus_ne
    rw [← hsystem] at hne
    exact absurd hstatus (not_or.mpr hne)

/-- An id that finds a task in an instance goes on finding it, as it was or closed by a command. -/
theorem exists_find?_foldl_obey {inst' id : String} {t : Task}
    (hfind : (s.tasksOf inst').find? (fun t => t.id == id) = some t) :
    ∃ u, ((commands.foldl (obey inst) s).tasksOf inst').find? (fun t => t.id == id) = some u ∧
      Task.Obeys commands t u := by
  refine Task.exists_find?_of_forall₂ (fun _ _ h => h.settles.origin.1) ?_ hfind
  refine List.rel_filter (fun t u h => ?_) (forall₂_foldl_obey inst s commands)
  show (t.instanceId == inst') = true ↔ (u.instanceId == inst') = true
  rw [h.settles.origin.2.1]

/-- Obeying does not touch definitions and instances. -/
theorem definitionFor?_foldl_obey (inst' : String) :
    (commands.foldl (obey inst) s).definitionFor? inst' = s.definitionFor? inst' := by
  induction commands generalizing s with
  | nil => rfl
  | cons c rest ih =>
    rw [List.foldl_cons, ih]
    cases c <;> rfl

end Store

/-- What a command for an instance adds to the log. -/
def Command.closure? (inst : String) : Command → Option ClosedBranch
  | .closeBranch gateway predecessor outcome comment =>
    some ⟨inst, gateway, predecessor, outcome, comment⟩
  | .finishPending .. | .spawnAutoPass _ | .forward _ => none

namespace Store

variable {s : Store} {inst : String} {commands : List Command}

/-- Obeying adds the closed branches to the log, in their order. -/
theorem closed_foldl_obey :
    (commands.foldl (obey inst) s).closed = s.closed ++ commands.filterMap (·.closure? inst) := by
  induction commands generalizing s with
  | nil => exact (List.append_nil _).symm
  | cons c rest ih =>
    rw [List.foldl_cons, ih]
    cases c with
    | closeBranch gateway predecessor outcome comment => exact List.append_assoc ..
    | finishPending node batch status comment => rfl
    | spawnAutoPass node => rfl
    | forward event => rfl

/-- Closing open tasks leaves the tasks at another node or of another instance alone. -/
theorem tasksAt_finishPending {inst' node node' : String} (h : inst' = inst → node' ≠ node)
    (batch : Option String) (status : TaskStatus) (comment : String) :
    (s.finishPending inst' node' batch status comment).2.tasksAt inst node =
      s.tasksAt inst node := by
  have hchoice : ∀ t ∈ s.tasks, ((fun t : Task => t.instanceId == inst && t.nodeId == node) ∘
      closeAt inst' node' batch status comment) t =
        (t.instanceId == inst && t.nodeId == node) := by
    intro t _
    obtain ⟨-, hinst, hnode, -⟩ := (settles_closeAt inst' node' batch status comment t).origin
    rw [Function.comp_apply, hinst, hnode]
  unfold tasksAt
  rw [tasks_finishPending, List.filter_map, List.filter_congr hchoice]
  refine (List.map_congr_left fun t ht => ?_).trans (List.map_id _)
  obtain ⟨-, hat⟩ := List.mem_filter.mp ht
  rw [Bool.and_eq_true, beq_iff_eq, beq_iff_eq] at hat
  have hnot : ¬ isOpenAt inst' node' batch t = true := by
    intro hopen
    obtain ⟨hinst, hnode, -, -⟩ := isOpenAt_iff.mp hopen
    exact h (hinst.symm.trans hat.1) (hnode.symm.trans hat.2)
  exact if_neg hnot

/-- **Obeying leaves the tasks at a node alone, unless a command is about that node.** -/
theorem tasksAt_foldl_obey {inst' node : String}
    (h : inst' = inst → ∀ node' batch status comment,
      .finishPending node' batch status comment ∈ commands → node' ≠ node) :
    (commands.foldl (obey inst') s).tasksAt inst node = s.tasksAt inst node := by
  induction commands generalizing s with
  | nil => rfl
  | cons c rest ih =>
    rw [List.foldl_cons, ih fun hinst node' batch status comment hmem =>
      h hinst node' batch status comment (List.mem_cons_of_mem _ hmem)]
    cases c with
    | closeBranch gateway predecessor outcome comment => rfl
    | finishPending node' batch status comment =>
      exact tasksAt_finishPending (fun hinst => h hinst _ _ _ _ List.mem_cons_self) ..
    | spawnAutoPass node => rfl
    | forward event => rfl

/-- Obeying changes no task if where open tasks are to be closed there is none. -/
theorem tasks_foldl_obey_of_closed
    (h : ∀ node batch status comment, .finishPending node batch status comment ∈ commands →
      ∀ t ∈ s.tasks, isOpenAt inst node batch t = false) :
    (commands.foldl (obey inst) s).tasks = s.tasks := by
  induction commands generalizing s with
  | nil => rfl
  | cons c rest ih =>
    have hc : (s.obey inst c).tasks = s.tasks := by
      cases c with
      | finishPending node batch status comment =>
        have hnone := h node batch status comment List.mem_cons_self
        refine (List.map_congr_left fun t ht => ?_).trans (List.map_id _)
        exact if_neg (Bool.eq_false_iff.mp (hnone t ht))
      | closeBranch gateway predecessor outcome comment => rfl
      | spawnAutoPass node => rfl
      | forward event => rfl
    rw [List.foldl_cons, ih, hc]
    rw [hc]
    exact fun node batch status comment hmem => h node batch status comment
      (List.mem_cons_of_mem _ hmem)

/-- After the open tasks of a node were closed, none of them is open. -/
theorem finished_of_finishPending {node : String} {batch : Option String} {status : TaskStatus}
    {comment : String} (h : .finishPending node batch status comment ∈ commands) {t : Task}
    (ht : t ∈ (commands.foldl (obey inst) s).tasks) : isOpenAt inst node batch t = false := by
  obtain ⟨pre, post, rfl⟩ := List.append_of_mem h
  rw [List.foldl_append, List.foldl_cons] at ht
  rw [Bool.eq_false_iff]
  intro hopen
  -- a task that is open in the end was open right after the command
  have ht := (settles_foldl_obey inst post _).unfinished ht (isOpenAt_iff.mp hopen).2.2.1
  obtain ⟨u, -, rfl⟩ := List.mem_map.mp ht
  split at hopen
  · exact absurd (isOpenAt_iff.mp hopen).2.2.1 nofun
  · rename_i hnot
    exact hnot hopen

end Store

namespace Dispatcher

variable {σ α : Type}

/-- The state after something was done, whether or not it failed. -/
def after (act : EStateM FlowError (Dispatcher σ) α) (d : Dispatcher σ) : Dispatcher σ :=
  match act d with
  | .ok _ d => d
  | .error _ d => d

theorem after_bind {β : Type} (act : EStateM FlowError (Dispatcher σ) α)
    (f : α → EStateM FlowError (Dispatcher σ) β) (d : Dispatcher σ) :
    after (act >>= f) d =
      match act d with
      | .ok a d => after (f a) d
      | .error _ d => d := by
  unfold after
  simp only [bind, EStateM.bind]
  cases act d <;> rfl

theorem after_bind_pure {β : Type} (act : EStateM FlowError (Dispatcher σ) α) (f : α → β)
    (d : Dispatcher σ) : after (act >>= fun a => pure (f a)) d = after act d := by
  rw [after_bind]
  unfold after
  cases act d <;> rfl

variable {autoPass : AutoPassOptions} {dispatch : DispatchOptions} {inst : String}
  {commands : List Command} {event : EngineEvent} {d : Dispatcher Store}

section Serving

variable {hooks : HookEvent → EStateM FlowError (Dispatcher Store) Unit}

/-! ## Executing -/

/-- A command that changes the engine does not fail. -/
theorem execute_ok {c : Command} (hc : c.touches = true) (inst : String) (d : Dispatcher Store) :
    execute (Store.serving hooks autoPass dispatch) inst c d =
      .ok none { d with engine := d.engine.obey inst c } := by
  cases c with
  | closeBranch gateway predecessor outcome comment => rfl
  | finishPending node batch status comment => rfl
  | spawnAutoPass node => cases hc
  | forward event => cases hc

theorem executeAll_cons (w : Wiring Store) (inst : String) (c : Command) (rest : List Command) :
    executeAll w inst (c :: rest) =
      (execute w inst c >>= fun run => executeAll w inst rest >>= fun runs =>
        pure (run.toList ++ runs)) := rfl

/-- The start of a run does not fail, and the other commands go on from there. -/
theorem executeAll_spawn (w : Wiring Store) (inst node : String) (rest : List Command)
    (d : Dispatcher Store) :
    executeAll w inst (.spawnAutoPass node :: rest) d =
      (executeAll w inst rest >>= fun runs => pure (d.runs.length :: runs))
        (d.spawn w inst node).2 := rfl

/-- To hand an event on is to call its hook. -/
theorem executeAll_forward (w : Wiring Store) (inst : String) (handed : HookEvent)
    (d : Dispatcher Store) :
    executeAll w inst [.forward handed] d =
      (w.hooks handed >>= fun _ => pure []) { d with delivered := d.delivered ++ [handed] } := by
  simp only [executeAll, execute, deliver, bind, EStateM.bind]
  cases w.hooks handed { d with delivered := d.delivered ++ [handed] } <;> rfl

/-- Commands that change the engine are all carried out. -/
theorem executeAll_ok (hall : ∀ c ∈ commands, c.touches = true) (inst : String)
    (d : Dispatcher Store) :
    executeAll (Store.serving hooks autoPass dispatch) inst commands d =
      .ok [] { d with engine := commands.foldl (Store.obey inst) d.engine } := by
  induction commands generalizing d with
  | nil => rfl
  | cons c rest ih =>
    have hc : execute (Store.serving hooks autoPass dispatch) inst c d = _ :=
      execute_ok (hall c List.mem_cons_self) inst d
    have hrest := ih (fun c' hc' => hall c' (List.mem_cons_of_mem _ hc'))
      { d with engine := d.engine.obey inst c }
    rw [executeAll_cons]
    simp only [bind, EStateM.bind, hc, hrest]
    rfl

/-- What every command preserves is preserved by all of them, wherever one fails. -/
theorem after_executeAll {P : Dispatcher Store → Prop} {w : Wiring Store}
    (hstep : ∀ c ∈ commands, ∀ d, P d → P (after (execute w inst c) d)) (hd : P d) :
    P (after (executeAll w inst commands) d) := by
  induction commands generalizing d with
  | nil => exact hd
  | cons c rest ih =>
    have hc := hstep c List.mem_cons_self d hd
    rw [executeAll_cons, after_bind]
    unfold after at hc
    cases hrun : execute w inst c d with
    | error e d' =>
      rw [hrun] at hc
      exact hc
    | ok run d' =>
      rw [hrun] at hc
      have hrest := ih (fun c' hc' => hstep c' (List.mem_cons_of_mem _ hc')) hc
      dsimp only
      rwa [after_bind_pure]

/-- Obeying commands that do not change the engine is doing nothing. -/
theorem foldl_obey_of_untouched (hnone : ∀ c ∈ commands, c.touches = false) (inst : String)
    (s : Store) : commands.foldl (Store.obey inst) s = s := by
  induction commands generalizing s with
  | nil => rfl
  | cons c rest ih =>
    have hc : s.obey inst c = s := by
      have := hnone c List.mem_cons_self
      cases c <;> first | rfl | cases this
    rw [List.foldl_cons, hc]
    exact ih (fun c' hc' => hnone c' (List.mem_cons_of_mem _ hc')) s

/-! ## Handling -/

/-- An event of an instance that does not exist fails, and nothing is done. -/
theorem handle_eq_error (h : d.engine.definitionFor? event.instanceId = none) :
    handle (Store.serving hooks autoPass dispatch) event d =
      .error (.instanceNotFound event.instanceId) d := by
  unfold handle ask Store.serving Store.engine
  simp only [bind, EStateM.bind, h]

/-- Any other event is handled by carrying out its commands. -/
theorem handle_eq {p : ProcessDefinition}
    (h : d.engine.definitionFor? event.instanceId = some p) :
    handle (Store.serving hooks autoPass dispatch) event d =
      (executeAll (Store.serving hooks autoPass dispatch) event.instanceId
        (d.engine.commands dispatch event) >>= fun runs =>
          pure ⟨d.engine.commands dispatch event, runs⟩) d := by
  have hcommands : d.engine.commands dispatch event =
      commandsFor event (.ofParts p.table (d.engine.tasksFor event)) dispatch := by
    unfold Store.commands
    rw [h]
  have hdefinition : ask ((Store.serving hooks autoPass dispatch).engine.definitionFor
      event.instanceId) d = .ok p d := by
    unfold ask Store.serving Store.engine
    simp only [h]
  have htasks : tasksFor (Store.serving hooks autoPass dispatch) event d =
      .ok (d.engine.tasksFor event) d := by
    cases event <;> rfl
  unfold handle
  simp only [bind, EStateM.bind, hdefinition, htasks, hcommands]
  rfl

/-- Whether or not an event fails, it leaves what its commands leave. -/
theorem after_handle (event : EngineEvent) (d : Dispatcher Store) :
    after (handle (Store.serving hooks autoPass dispatch) event) d =
      after (executeAll (Store.serving hooks autoPass dispatch) event.instanceId
        (d.engine.commands dispatch event)) d := by
  cases h : d.engine.definitionFor? event.instanceId with
  | none =>
    unfold after
    rw [handle_eq_error h, Store.commands_of_unknown event h]
    rfl
  | some p =>
    rw [← after_bind_pure _ fun runs => (⟨d.engine.commands dispatch event, runs⟩ : Report)]
    unfold after
    rw [handle_eq h]

/-- An event that does not fail is about an instance that exists, and its report names its
commands. -/
theorem exists_definition_of_handle {report : Report} {d' : Dispatcher Store}
    (h : handle (Store.serving hooks autoPass dispatch) event d = .ok report d') :
    (∃ p, d.engine.definitionFor? event.instanceId = some p) ∧
      report.commands = d.engine.commands dispatch event := by
  cases hp : d.engine.definitionFor? event.instanceId with
  | none =>
    rw [handle_eq_error hp] at h
    cases h
  | some p =>
    refine ⟨⟨p, rfl⟩, ?_⟩
    rw [handle_eq hp] at h
    simp only [bind, EStateM.bind] at h
    split at h
    · obtain ⟨rfl, -⟩ := EStateM.Result.ok.inj h
      rfl
    · cases h

/-- An event with a command that changes the engine does not fail, since all its commands do. -/
theorem handle_ok {c : Command} (hmem : c ∈ d.engine.commands dispatch event)
    (hc : c.touches = true) :
    handle (Store.serving hooks autoPass dispatch) event d =
      .ok ⟨d.engine.commands dispatch event, []⟩
        { d with engine :=
            (d.engine.commands dispatch event).foldl (Store.obey event.instanceId) d.engine } := by
  cases hp : d.engine.definitionFor? event.instanceId with
  | none =>
    rw [Store.commands_of_unknown event hp] at hmem
    cases hmem
  | some p =>
    rcases d.engine.commands_touches dispatch event with hall | hnone
    · rw [handle_eq hp]
      simp only [bind, EStateM.bind, executeAll_ok hall]
      rfl
    · rw [hnone c hmem] at hc
      cases hc

end Serving

section AtOnce

variable {hooks : HookEvent → Except FlowError Unit}

/-! ## Hooks that answer at once -/

theorem after_atOnce (h : HookEvent) (d : Dispatcher Store) : after (atOnce hooks h) d = d := by
  unfold after atOnce
  cases hooks h <;> rfl

/-- Handing an event on is only noted, whether or not it is taken. -/
theorem after_forward (inst : String) (event : HookEvent) (d : Dispatcher Store) :
    after (execute (Store.wiring hooks autoPass dispatch) inst (.forward event)) d =
      { d with delivered := d.delivered ++ [event] } := by
  show after (deliver (Store.wiring hooks autoPass dispatch) event >>= fun _ => pure none) d = _
  rw [after_bind_pure]
  exact after_atOnce event { d with delivered := d.delivered ++ [event] }

/-- The other commands do not change it, whether or not they fail. -/
theorem engine_after_execute {c : Command} (hc : c.touches = false) (inst : String)
    (d : Dispatcher Store) :
    (after (execute (Store.wiring hooks autoPass dispatch) inst c) d).engine = d.engine := by
  cases c with
  | closeBranch gateway predecessor outcome comment => cases hc
  | finishPending node batch status comment => cases hc
  | spawnAutoPass node => rfl
  | forward event => rw [after_forward]

/-- Then commands take no time. -/
theorem now_command (inst : String) (c : Command) :
    (after (execute (Store.wiring hooks autoPass dispatch) inst c) d).now = d.now := by
  cases c with
  | closeBranch | finishPending | spawnAutoPass => rfl
  | forward event => rw [after_forward]

/-- Of commands that do not change the engine any number may be carried out. -/
theorem engine_after_executeAll (hnone : ∀ c ∈ commands, c.touches = false) (inst : String)
    (d : Dispatcher Store) :
    (after (executeAll (Store.wiring hooks autoPass dispatch) inst commands) d).engine =
      d.engine :=
  after_executeAll (P := fun d' => d'.engine = d.engine)
    (fun _ hc d' hd' => (engine_after_execute (hnone _ hc) inst d').trans hd') rfl

/-- **After an event the engine has obeyed all its commands**, whether or not the event failed. -/
theorem engine_after_handle (event : EngineEvent) (d : Dispatcher Store) :
    (after (handle (Store.wiring hooks autoPass dispatch) event) d).engine =
      (d.engine.commands dispatch event).foldl (Store.obey event.instanceId) d.engine := by
  rw [after_handle]
  rcases d.engine.commands_touches dispatch event with hall | hnone
  · unfold after
    rw [executeAll_ok hall]
  · rw [engine_after_executeAll hnone, foldl_obey_of_untouched hnone]

/-! ## Hooks that take their time -/

theorem after_executeAll_forward (w : Wiring Store) (inst : String) (handed : HookEvent)
    (d : Dispatcher Store) :
    after (executeAll w inst [.forward handed]) d =
      after (w.hooks handed) { d with delivered := d.delivered ++ [handed] } := by
  rw [← after_bind_pure (w.hooks handed) fun _ => ([] : List Nat)]
  unfold after
  rw [executeAll_forward]

theorem after_executeAll_spawn (w : Wiring Store) (inst node : String) (rest : List Command)
    (d : Dispatcher Store) :
    after (executeAll w inst (.spawnAutoPass node :: rest)) d =
      after (executeAll w inst rest) (d.spawn w inst node).2 := by
  rw [← after_bind_pure (executeAll w inst rest) fun runs => d.runs.length :: runs]
  unfold after
  rw [executeAll_spawn]

/-- **It is the same whether a hook is waited for or answers at once and does its work afterwards**:
when its event is handed on, all else has been done. -/
theorem after_handle_slow (slow : HookEvent → EStateM FlowError (Dispatcher Store) Unit)
    (event : EngineEvent) (d : Dispatcher Store) :
    after (handle (Store.serving slow autoPass dispatch) event) d =
        after (handle (Store.wiring hooks autoPass dispatch) event) d ∨
      ∃ handed, .forward handed ∈ d.engine.commands dispatch event ∧
        after (handle (Store.serving slow autoPass dispatch) event) d =
          after (slow handed) (after (handle (Store.wiring hooks autoPass dispatch) event) d) := by
  have hquick (handed : HookEvent) (d : Dispatcher Store) :
      after ((Store.wiring hooks autoPass dispatch).hooks handed) d = d := after_atOnce handed d
  simp only [after_handle]
  rcases d.engine.commands_alone dispatch event with hall | ⟨handed, hcommands⟩ |
    ⟨node, handed, hcommands⟩
  · left
    unfold after
    rw [executeAll_ok hall, executeAll_ok hall]
  · refine .inr ⟨handed, hcommands ▸ List.mem_singleton_self _, ?_⟩
    rw [hcommands, after_executeAll_forward, after_executeAll_forward, hquick]
    rfl
  · refine .inr ⟨handed, hcommands ▸ List.mem_cons_of_mem _ (List.mem_singleton_self _), ?_⟩
    rw [hcommands, after_executeAll_spawn, after_executeAll_spawn, after_executeAll_forward,
      after_executeAll_forward, hquick]
    rfl

end AtOnce

end Dispatcher

end ApprovalFlow
