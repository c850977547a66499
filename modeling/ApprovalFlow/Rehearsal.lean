import ApprovalFlow.Dispatcher.Service
import ApprovalFlow.Engine.Deploy
import ApprovalFlow.Engine.Fault
import ApprovalFlow.Engine.Store
import ApprovalFlow.Progress

/-!
# Rehearsals

Processes tried out against an engine in memory: its requests and the hooks fail on demand, and
time passes only when it is told to.

- `Rehearsal`: the dispatcher with its engine, the hooks that fail, and the handles of runs.
- `Rehearsal.request`: a request to the engine; `Rehearsal.onStore`: a change behind its back.
- `Rehearsal.handle`, `Rehearsal.serve`, `Rehearsal.spawn`, `Rehearsal.sleep`, `Rehearsal.await`,
  `Rehearsal.cancel`: what the dispatcher does.
- `Rehearsal.progress`: how far an instance has come.
-/

namespace ApprovalFlow

/-- A rehearsal. -/
structure Rehearsal where
  settings : Settings
  dispatcher : Dispatcher (Faulty Store)
  /-- The events whose taking fails, and why; of one event the first entry counts. -/
  brokenHooks : List (EventName × String) := []
  /-- For each handle the place of its run, or nothing if the handle was given back. -/
  handles : List (Option Nat) := []
  deriving DecidableEq

/-- The handle of a run, with what the run is for. -/
structure RunHandle where
  handle : Nat
  instanceId : String
  nodeId : String
  deriving DecidableEq, Repr

namespace Rehearsal

/-- A rehearsal at its beginning. -/
def start (settings : Settings) : Rehearsal where
  settings := settings
  dispatcher := { engine := { inner := {} } }

/-- The engine in memory, with the outages to come. -/
def engine : Engine (Faulty Store) := Store.engine.withFaults

/-- What the dispatcher works with. The hooks of a rehearsal answer at once. -/
def wiring (r : Rehearsal) : Wiring (Faulty Store) where
  engine := engine
  hooks := Dispatcher.atOnce fun h =>
    match r.brokenHooks.find? fun b => b.1 == h.event with
    | some (_, reason) => .error (.refused reason)
    | none => .ok ()
  autoPass := r.settings.autoPass
  dispatch := r.settings.dispatch

/-! ## The engine -/

/-- The state of the engine. -/
def store (r : Rehearsal) : Store := r.dispatcher.engine.inner

/-- Change the state of the engine without a request. -/
def onStore (r : Rehearsal) (f : Store → Store) : Rehearsal :=
  { r with dispatcher.engine.inner := f r.store }

/-- Do something as the dispatcher. -/
def act {α : Type} (a : EStateM FlowError (Dispatcher (Faulty Store)) α) :
    EStateM FlowError Rehearsal α := fun r =>
  match a r.dispatcher with
  | .ok x d => .ok x { r with dispatcher := d }
  | .error e d => .error e { r with dispatcher := d }

/-- A request to the engine. -/
def request {α : Type} (a : EStateM FlowError (Faulty Store) α) : EStateM FlowError Rehearsal α :=
  act (Dispatcher.ask a)

/-- How far an instance has come, by its definition and its tasks. -/
def progress (instanceId : String) : EStateM FlowError Rehearsal Progress := do
  let definition ← request (engine.definitionFor instanceId)
  let tasks ← request (engine.listTasks instanceId)
  return .ofTasks definition.nodes tasks

/-! ## Failing on demand -/

/-- Plan an outage after those that are planned already. -/
def addOutage (r : Rehearsal) (o : Outage) : Rehearsal :=
  { r with dispatcher.engine.faults := r.dispatcher.engine.faults ++ [o] }

/-- Let the taking of an event fail from now on. -/
def breakHook (r : Rehearsal) (event : EventName) (reason : String) : Rehearsal :=
  { r with brokenHooks := (event, reason) :: r.brokenHooks }

/-! ## Handles -/

/-- The place of the run with a handle, unless the handle was given back. -/
def place? (r : Rehearsal) (handle : Nat) : Option Nat := (r.handles[handle]?).join

/-- The run with a handle, unless the handle was given back. -/
def run? (r : Rehearsal) (handle : Nat) : Option Run := do
  r.dispatcher.runs[← r.place? handle]?

/-- Take back a handle. -/
def release (r : Rehearsal) (handle : Nat) : Rehearsal :=
  { r with handles := r.handles.set handle none }

/-- Give a handle to the run at each of some places. -/
def issue (r : Rehearsal) (places : List Nat) : List RunHandle × Rehearsal :=
  let issued := places.zipIdx r.handles.length |>.filterMap fun (place, handle) =>
    (r.dispatcher.runs[place]?).map fun run => ⟨handle, run.instanceId, run.nodeId⟩
  (issued, { r with handles := r.handles ++ places.map some })

/-! ## The dispatcher -/

/-- Handle an event; the answer is the commands and the handles of the runs started. -/
def handle (event : EngineEvent) : EStateM FlowError Rehearsal (List Command × List RunHandle) :=
  fun r =>
    match act (Dispatcher.handle r.wiring event) r with
    | .ok report r =>
      let (handles, r) := r.issue report.runs
      .ok (report.commands, handles) r
    | .error e r => .error e r

/-- Handle the events of a host in order; the answer is those that failed, if anyone listens. The
runs started get no handle. -/
def serve (r : Rehearsal) (listening : Bool) (events : List EngineEvent) :
    List Failure × Rehearsal :=
  let (failures, d) := r.dispatcher.serve r.wiring listening events
  (failures, { r with dispatcher := d })

/-- Start a run. -/
def spawn (r : Rehearsal) (instanceId nodeId : String) : List RunHandle × Rehearsal :=
  let (place, d) := r.dispatcher.spawn r.wiring instanceId nodeId
  { r with dispatcher := d }.issue [place]

/-- Let a span of time pass. -/
def sleep (r : Rehearsal) (millis : Nat) : Rehearsal :=
  { r with dispatcher := r.dispatcher.sleep r.wiring millis }

/-- Let time pass until the run with a handle is over, and take the handle back; the answer is how
the run ended. -/
def await (r : Rehearsal) (handle : Nat) : Option (RunStatus × Rehearsal) := do
  let place ← r.place? handle
  let d := r.dispatcher.await r.wiring place
  let run ← d.runs[place]?
  return (run.status, { r with dispatcher := d }.release handle)

/-- Stop the run with a handle, and take the handle back. -/
def cancel (r : Rehearsal) (handle : Nat) : Option Rehearsal := do
  let place ← r.place? handle
  return { r with dispatcher := r.dispatcher.cancel place }.release handle

end Rehearsal

end ApprovalFlow
