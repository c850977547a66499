import ApprovalFlow.AutoPass.Run
import ApprovalFlow.Dispatch.Decide

/-!
# The dispatcher

The dispatcher handles the events of a host engine: it asks the engine for what a decision looks at,
decides, and carries out the commands one after the other. Where it hands an event on it waits until
the event is taken, and the runs that were started go on in the meantime.

- `Dispatcher`: the engine's state, the time, the auto-pass runs, and the events handed on.
- `Wiring`: what a dispatcher works with and never changes.
- `Dispatcher.deliver`: an event is handed on.
- `Dispatcher.atOnce`: hooks that answer at once.
- `Dispatcher.execute`: one command.
- `Dispatcher.handle`: one event. A request that fails ends the event, but not what was done before.
-/

namespace ApprovalFlow

/-- The state of a dispatcher and of the engine that it serves. -/
structure Dispatcher (σ : Type) where
  /-- The engine's state. -/
  engine : σ
  /-- The time, in milliseconds. -/
  now : Nat := 0
  /-- The auto-pass runs, in the order in which they were started. -/
  runs : List Run := []
  /-- The events handed on, oldest first, those included whose taking failed. -/
  delivered : List HookEvent := []
  deriving DecidableEq

/-- What a dispatcher works with: the engine, whoever takes the events handed on, and options. -/
structure Wiring (σ : Type) where
  engine : Engine σ
  /-- Takes an event, or fails. It need not answer at once: until it does, the clock goes on, runs
  act, and it may itself call the engine, so whatever the dispatcher serves may have changed. -/
  hooks : HookEvent → EStateM FlowError (Dispatcher σ) Unit
  autoPass : AutoPassOptions
  dispatch : DispatchOptions

/-- What handling an event did. -/
structure Report where
  commands : List Command
  /-- The auto-pass runs that were started, by their places among the dispatcher's. -/
  runs : List Nat
  deriving DecidableEq, Repr

/-- An event whose handling failed. -/
structure Failure where
  event : EngineEvent
  cause : FlowError
  deriving DecidableEq, Repr

namespace Dispatcher

variable {σ : Type}

/-- Ask the engine. -/
def ask {α : Type} (act : EStateM FlowError σ α) : EStateM FlowError (Dispatcher σ) α := fun d =>
  match act d.engine with
  | .ok a s => .ok a { d with engine := s }
  | .error e s => .error e { d with engine := s }

/-- Start an auto-pass run; the answer is its place among the runs. -/
def spawn (w : Wiring σ) (instanceId nodeId : String) (d : Dispatcher σ) : Nat × Dispatcher σ :=
  (d.runs.length,
    { d with runs := d.runs ++ [Run.start w.autoPass instanceId nodeId d.now] })

/-- Hand an event on, and wait until it is taken. -/
def deliver (w : Wiring σ) (h : HookEvent) : EStateM FlowError (Dispatcher σ) Unit := fun d =>
  w.hooks h { d with delivered := d.delivered ++ [h] }

/-- Hooks that answer at once: no time passes, no run acts, and the engine is left alone. -/
def atOnce (answer : HookEvent → Except FlowError Unit) (h : HookEvent) :
    EStateM FlowError (Dispatcher σ) Unit := fun d =>
  match answer h with
  | .ok () => .ok () d
  | .error e => .error e d

/-- Carry out a command for an instance; the answer is the run if one was started. -/
def execute (w : Wiring σ) (instanceId : String) :
    Command → EStateM FlowError (Dispatcher σ) (Option Nat)
  | .closeBranch gateway predecessor outcome comment => do
    ask (w.engine.closeBranch instanceId gateway predecessor outcome comment)
    return none
  | .finishPending nodeId batch status comment => do
    let _ ← ask (w.engine.finishPending instanceId nodeId batch status comment)
    return none
  | .spawnAutoPass nodeId => fun d =>
    let (run, d) := d.spawn w instanceId nodeId
    .ok (some run) d
  | .forward h => do
    deliver w h
    return none

/-- Carry out commands in order, up to the first that fails; the answer is the runs started. -/
def executeAll (w : Wiring σ) (instanceId : String) :
    List Command → EStateM FlowError (Dispatcher σ) (List Nat)
  | [] => return []
  | c :: rest => do
    let run ← execute w instanceId c
    let runs ← executeAll w instanceId rest
    return run.toList ++ runs

/-- The tasks that the decision about an event looks at: none for the events of nodes. -/
def tasksFor (w : Wiring σ) : EngineEvent → EStateM FlowError (Dispatcher σ) (List Task)
  | .taskFinished _ t => ask (w.engine.listTasks t.instanceId)
  | .nodeStarted .. | .nodeEnded .. => return []

/-- Handle an event. -/
def handle (w : Wiring σ) (event : EngineEvent) : EStateM FlowError (Dispatcher σ) Report := do
  let definition ← ask (w.engine.definitionFor event.instanceId)
  let tasks ← tasksFor w event
  let commands := commandsFor event (.ofParts definition.table tasks) w.dispatch
  let runs ← executeAll w event.instanceId commands
  return ⟨commands, runs⟩

end Dispatcher

end ApprovalFlow
