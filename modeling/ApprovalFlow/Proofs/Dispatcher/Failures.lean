import ApprovalFlow.Proofs.AutoPass.Waiting
import ApprovalFlow.Proofs.Dispatcher.Effects

/-!
# Events that fail

The dispatcher carries out the commands of an event one after the other and takes nothing back, so
what it leaves of an event that fails is what stands before the command that failed. With an engine in
memory only handing an event on can fail. Nothing that changes the engine ever stands before it, but
a run may: where the system completes a node that starts, its run is started first, and it goes on
while the hook is waited for.

- `Store.StartsSystemNode`: the events for which a run is started; `Store.commands_of_starts`: what
  they lead to.
- `Store.commands_cases`: the commands of all events.
- `Dispatcher.HandsOn`: how things stand when a hook is called.
- `Dispatcher.failed_cases`: **an event fails because its instance is unknown, or with its hook.**
- `Dispatcher.left_by_failed`: what a failed event leaves behind, whatever the hook does and however
  long it takes; `Dispatcher.left_by_failed_start`: a task may have been passed by then.
- `Dispatcher.not_traceless_of_failed`: so it need not be nothing.
-/

namespace ApprovalFlow

namespace Store

/-- Does a node start that the system completes, in an instance that exists? -/
def StartsSystemNode (s : Store) (event : EngineEvent) : Prop :=
  ∃ inst node e p n, event = .nodeStarted inst node e ∧ (e = .taskNodeStart ∨ e = .automationStart) ∧
    s.definitionFor? inst = some p ∧ p.table.find? node = some n ∧ n.isSystemAuto = true

variable {s : Store} {o : DispatchOptions} {event : EngineEvent}

/-- Then a run is started, and the event is handed on. -/
theorem commands_of_starts (h : s.StartsSystemNode event) :
    s.commands o event = [.spawnAutoPass event.nodeId,
      .forward ⟨event.name, event.instanceId, event.nodeId, none⟩] := by
  obtain ⟨inst, node, e, p, n, rfl, hstart, hp, hn, hauto⟩ := h
  have hp : s.definitionFor? (EngineEvent.nodeStarted inst node e).instanceId = some p := hp
  have hsystem : ((p.table.find? node).map ProcessNode.isSystemAuto).getD false = true := by
    rw [hn]
    exact hauto
  unfold Store.commands
  rw [hp]
  rcases hstart with rfl | rfl <;> exact if_pos hsystem

/-- A run is started then only. -/
theorem starts_of_spawn_mem {node : String} (h : .spawnAutoPass node ∈ s.commands o event) :
    s.StartsSystemNode event := by
  unfold Store.commands at h
  cases hp : s.definitionFor? event.instanceId with
  | none =>
    rw [hp] at h
    cases h
  | some p =>
    rw [hp] at h
    obtain ⟨⟨inst, e, rfl, hstart⟩, n, hn, hauto⟩ := spawnAutoPass_mem_iff.mp h
    exact ⟨inst, node, e, p, n, rfl, hstart, hp, hn, hauto⟩

/-- An event is handed on right behind the start of a run just where a node starts that the system
completes. -/
theorem commands_cases (s : Store) (o : DispatchOptions) (event : EngineEvent) :
    (∀ c ∈ s.commands o event, c.touches = true) ∨
      (¬ s.StartsSystemNode event ∧ ∃ h, s.commands o event = [.forward h]) ∨
      s.StartsSystemNode event ∧
        ∃ h, s.commands o event = [.spawnAutoPass event.nodeId, .forward h] := by
  by_cases hstarts : s.StartsSystemNode event
  · exact .inr (.inr ⟨hstarts, _, commands_of_starts hstarts⟩)
  · rcases s.commands_alone o event with hall | hforward | ⟨node, h, hcommands⟩
    · exact .inl hall
    · exact .inr (.inl ⟨hstarts, hforward⟩)
    · have hspawn : .spawnAutoPass node ∈ s.commands o event := by
        rw [hcommands]
        exact List.mem_cons_self
      exact absurd (starts_of_spawn_mem hspawn) hstarts

end Store

namespace Dispatcher

/-! ## Failing -/

/-- What is done with an answer does not fail. -/
theorem error_of_bind_pure {σ α β : Type} {act : EStateM FlowError (Dispatcher σ) α} {f : α → β}
    {d d' : Dispatcher σ} {e : FlowError}
    (h : (act >>= fun a => pure (f a)) d = .error e d') : act d = .error e d' := by
  simp only [bind, EStateM.bind] at h
  cases hact : act d with
  | ok a d₁ =>
    rw [hact] at h
    cases h
  | error e₁ d₁ =>
    rw [hact] at h
    cases h
    rfl

/-- What the dispatcher has done of an event when it calls the hook: it has done nothing since the
state `d` but start a run, if a node started that the system completes. -/
structure HandsOn (autoPass : AutoPassOptions) (dispatch : DispatchOptions) (event : EngineEvent)
    (d : Dispatcher Store) (handed : HookEvent) (called : Dispatcher Store) : Prop where
  decided : .forward handed ∈ d.engine.commands dispatch event
  engine : called.engine = d.engine
  now : called.now = d.now
  delivered : called.delivered = d.delivered ++ [handed]
  runs : ¬ d.engine.StartsSystemNode event ∧ called.runs = d.runs ∨
    d.engine.StartsSystemNode event ∧
      called.runs = d.runs ++ [Run.start autoPass event.instanceId event.nodeId d.now]

variable {hooks : HookEvent → EStateM FlowError (Dispatcher Store) Unit}
  {autoPass : AutoPassOptions} {dispatch : DispatchOptions} {event : EngineEvent}
  {d d' : Dispatcher Store} {e : FlowError}

/-- **An event fails because its instance is unknown, or with its hook.** -/
theorem failed_cases (h : handle (Store.serving hooks autoPass dispatch) event d = .error e d') :
    (d.engine.definitionFor? event.instanceId = none ∧ e = .instanceNotFound event.instanceId ∧
        d' = d) ∨
      ∃ handed called, HandsOn autoPass dispatch event d handed called ∧
        hooks handed called = .error e d' := by
  cases hp : d.engine.definitionFor? event.instanceId with
  | none =>
    rw [handle_eq_error hp] at h
    cases h
    exact .inl ⟨rfl, rfl, rfl⟩
  | some p =>
    rw [handle_eq hp] at h
    have hfailed := error_of_bind_pure h
    rcases d.engine.commands_cases dispatch event with hall |
      ⟨hnot, handed, hcommands⟩ | ⟨hstarts, handed, hcommands⟩
    · -- commands that change the engine are all carried out
      rw [executeAll_ok hall] at hfailed
      cases hfailed
    · have hdecided : .forward handed ∈ d.engine.commands dispatch event :=
        hcommands ▸ List.mem_singleton_self _
      rw [hcommands, executeAll_forward] at hfailed
      have hhook := error_of_bind_pure hfailed
      exact .inr ⟨handed, { d with delivered := d.delivered ++ [handed] },
        ⟨hdecided, rfl, rfl, rfl, .inl ⟨hnot, rfl⟩⟩, hhook⟩
    · have hdecided : .forward handed ∈ d.engine.commands dispatch event :=
        hcommands ▸ List.mem_cons_of_mem _ (List.mem_singleton_self _)
      rw [hcommands, executeAll_spawn] at hfailed
      have hforward := error_of_bind_pure hfailed
      rw [executeAll_forward] at hforward
      have hhook := error_of_bind_pure hforward
      exact .inr ⟨handed, { d with
        runs := d.runs ++ [Run.start autoPass event.instanceId event.nodeId d.now]
        delivered := d.delivered ++ [handed] },
        ⟨hdecided, rfl, rfl, rfl, .inr ⟨hstarts, rfl⟩⟩, hhook⟩

/-! ## What is left -/

/-- **What a failed event leaves behind.** If its instance is unknown, nothing was done. Else a hook
failed, and when it was called no task and no entry of the log had changed, and no run had been
started but one for the node, and that just if a node started that the system completes. All that has
changed since came about while the hook was waited for. If only runs acted meanwhile, then of the
engine only tasks have changed, those that were open and that a run was out for and passed, and no
further run was started. -/
theorem left_by_failed
    (h : handle (Store.serving hooks autoPass dispatch) event d = .error e d') :
    (d.engine.definitionFor? event.instanceId = none ∧ e = .instanceNotFound event.instanceId ∧
        d' = d) ∨
      ∃ handed called, HandsOn autoPass dispatch event d handed called ∧
        hooks handed called = .error e d' ∧
        (LeadsBy (fun _ a => a.OfRun) (Store.serving hooks autoPass dispatch) called d' →
          d'.engine = { d.engine with tasks := d'.engine.tasks } ∧
            List.Forall₂ (Task.Waited autoPass called) d.engine.tasks d'.engine.tasks ∧
            List.Forall₂ Run.Waited called.runs d'.runs) := by
  rcases failed_cases h with hunknown | ⟨handed, called, hcalled, hhook⟩
  · exact .inl hunknown
  · refine .inr ⟨handed, called, hcalled, hhook, fun hleads => ?_⟩
    have hwaited := waited_of_leadsBy hleads
    rw [← hcalled.engine]
    exact ⟨hwaited.engine, hwaited.tasks, hwaited.runs⟩

/-- A node of the system's in an instance, with its task, before it starts. -/
def systemNode : Dispatcher Store where
  engine :=
    { definitions := SortedMap.ofList [("proc-1", ⟨"auto",
        [{ id := "A", name := "A", type := .approval, approverIds := [systemApprover] }]⟩)]
      instances := SortedMap.ofList [("inst-1", "proc-1")]
      tasks := [⟨"task-1", "inst-1", "A", "b", "sys_auto", .pending, false, false, ""⟩] }
  now := 700

/-- Hooks that fail, but not before the first run has acted. -/
def slowHooks (_ : HookEvent) : EStateM FlowError (Dispatcher Store) Unit := fun d =>
  .error (.refused "hook failed") (d.visit (Store.wiring (fun _ => .ok ()) {} {}) 0)

/-- The start of the node. -/
def nodeStarts : EngineEvent := .nodeStarted "inst-1" "A" .automationStart

/-- The node starts, and by the time the event fails the run has passed the task. -/
theorem left_by_failed_start :
    let w := Store.serving slowHooks {} {}
    ∃ d', handle w nodeStarts systemNode = .error (.refused "hook failed") d' ∧
      d'.engine.tasks =
        [⟨"task-1", "inst-1", "A", "b", "sys_auto", .passed, true, false, "system auto pass"⟩] ∧
      d'.runs = [⟨"inst-1", "A", 1200, 10700, .completed "task-1"⟩] ∧
      ∃ handed called, HandsOn {} {} nodeStarts systemNode handed called ∧
        LeadsBy (fun _ a => a.OfRun) w called d' ∧
        d'.engine = { systemNode.engine with tasks := d'.engine.tasks } ∧
        List.Forall₂ (Task.Waited {} called) systemNode.engine.tasks d'.engine.tasks := by
  intro w
  have hfailed : handle w nodeStarts systemNode =
      .error (.refused "hook failed") (after (handle w nodeStarts) systemNode) := rfl
  refine ⟨_, hfailed, by decide, by decide, ?_⟩
  rcases left_by_failed hfailed with ⟨hunknown, -⟩ | ⟨handed, called, hcalled, hhook, hleft⟩
  · cases hunknown
  · have hleads : LeadsBy (fun _ a => a.OfRun) w called (after (handle w nodeStarts) systemNode) := by
      obtain ⟨-, heq⟩ := EStateM.Result.error.inj hhook
      rw [← heq]
      exact .act (a := .visit 0) trivial
    obtain ⟨hengine, hwaited, -⟩ := hleft hleads
    exact ⟨handed, called, hcalled, hleads, hengine, hwaited⟩

/-- So a failed event may leave something behind, even if its hook answers at once. -/
theorem not_traceless_of_failed :
    ¬ ∀ (hooks : HookEvent → Except FlowError Unit) (autoPass : AutoPassOptions)
        (dispatch : DispatchOptions) (event : EngineEvent) (d d' : Dispatcher Store) (e : FlowError),
      handle (Store.wiring hooks autoPass dispatch) event d = .error e d' →
        d'.engine.tasks = d.engine.tasks ∧ d'.engine.closed = d.engine.closed ∧
          d'.runs = d.runs := by
  intro hall
  have hfailed : ∃ d', handle (Store.wiring (fun _ => .error (.refused "hook failed")) {} {})
      nodeStarts systemNode = .error (.refused "hook failed") d' ∧ d'.runs ≠ systemNode.runs :=
    ⟨_, rfl, nofun⟩
  obtain ⟨d', hd', hruns⟩ := hfailed
  exact hruns (hall _ _ _ _ _ _ _ hd').2.2

end Dispatcher

end ApprovalFlow
