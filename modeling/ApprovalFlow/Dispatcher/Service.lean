import ApprovalFlow.Dispatcher.Clock

/-!
# Serving a host

A host hands its events over through a queue with room for some of them, and takes the failures
away, of which one at a time can lie ready. The dispatcher works through the queue and rests when it
has to wait for the host: before an event, if the queue is empty, and after an event that failed, if
an earlier failure still lies ready. During a rest the runs act at the present instant, and the host
fills the queue and takes away what lies ready.

- `Wiring.room`: how many events the queue holds.
- `Dispatcher.drain`: the events from some point on.
- `Dispatcher.serve`: all events, from the first on. One that fails does not keep back the others.
-/

namespace ApprovalFlow

/-- How many events the queue holds: at least one, or none would get through. -/
def Wiring.room {σ : Type} (w : Wiring σ) : Nat := max 1 w.dispatch.eventBuffer

namespace Dispatcher

variable {σ : Type}

/-- Handle events in order, `queued` of which are in the queue. A failure lies ready if `reported`;
one that finds the place taken waits for a rest and then lies ready itself. If nobody is `listening`,
failures are dropped and never lie ready. -/
def drain (w : Wiring σ) (listening : Bool) (queued : Nat) (reported : Bool) :
    List EngineEvent → Dispatcher σ → List Failure × Dispatcher σ
  | [], d => ([], d.settle w)
  | event :: rest, d =>
    let (queued, reported, d) :=
      if queued = 0 then (w.room, false, d.settle w) else (queued, reported, d)
    match handle w event d with
    | .ok _ d => drain w listening (queued - 1) reported rest d
    | .error cause d =>
      let (failures, d) :=
        if reported then drain w listening w.room true rest (d.settle w)
        else drain w listening (queued - 1) listening rest d
      (if listening then ⟨event, cause⟩ :: failures else failures, d)

/-- Handle the events of a host in order; the answer is those that failed, if anyone listens. -/
def serve (w : Wiring σ) (listening : Bool) (events : List EngineEvent) (d : Dispatcher σ) :
    List Failure × Dispatcher σ :=
  drain w listening 0 false events d

end Dispatcher

end ApprovalFlow
