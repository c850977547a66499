import ApprovalFlow.Dispatcher.Basic

/-!
# The clock

Auto-pass runs act at instants of a clock that moves only when it is told to. The clock goes from
one instant at which a run acts to the next, and at each instant the runs act in the order in which
they were started.

- `Dispatcher.settle`: what the runs do at the present instant.
- `Dispatcher.nextInstant?`: the next instant at which a run acts.
- `Dispatcher.advance`: all up to an instant, or until a condition holds.
- `Dispatcher.sleep`, `Dispatcher.await`: a span of time, and the end of a run.
-/

namespace ApprovalFlow.Dispatcher

variable {σ : Type}

/-- What the runs do at the present instant. -/
def settle (w : Wiring σ) (d : Dispatcher σ) : Dispatcher σ :=
  let (runs, s) := Run.visitAll w.engine w.autoPass d.now d.runs d.engine
  { d with engine := s, runs := runs }

/-- The next instant at which a run acts. -/
def nextInstant? (d : Dispatcher σ) : Option Nat := (d.runs.filterMap Run.nextInstant?).min?

/-- Go from instant to instant, up to the instant `limit`, or to the first after which `stop`
holds. -/
def advance (w : Wiring σ) (stop : Dispatcher σ → Bool) (limit : Nat) (d : Dispatcher σ) :
    Dispatcher σ :=
  if stop d then d
  else
    match d.nextInstant? with
    | none => { d with now := max d.now limit }
    | some t =>
      if _h : d.now < t ∧ t ≤ limit then
        advance w stop limit ({ d with now := t }.settle w)
      else { d with now := max d.now limit }
termination_by limit - d.now
decreasing_by
  simp only [settle]
  omega

/-- Let a span of time pass. -/
def sleep (w : Wiring σ) (millis : Nat) (d : Dispatcher σ) : Dispatcher σ :=
  advance w (fun _ => false) (d.now + millis) (d.settle w)

/-- Is the run at the place over? -/
def isOver (place : Nat) (d : Dispatcher σ) : Bool :=
  (d.runs[place]?).all fun r => r.status.isTerminal

/-- Let time pass until the run at the place is over. -/
def await (w : Wiring σ) (place : Nat) (d : Dispatcher σ) : Dispatcher σ :=
  match d.runs[place]? with
  | some r =>
    if r.status.isTerminal then d else advance w (isOver place) r.deadline (d.settle w)
  | none => d

/-- Stop the run at the place, unless it is over. -/
def cancel (place : Nat) (d : Dispatcher σ) : Dispatcher σ :=
  { d with runs := d.runs.modify place fun r =>
      if r.status.isTerminal then r else { r with status := .cancelled } }

end ApprovalFlow.Dispatcher
