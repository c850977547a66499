import ApprovalFlow.Definition.Compile
import ApprovalFlow.Engine.Basic

/-!
# Deploying diagrams

A diagram is read, compiled and submitted, in this order: nothing reaches the engine unless reading
and compiling succeed.

- `Engine.deploy`: compile and submit a diagram.
- `Engine.deployText`: the same for the text of one.
-/

namespace ApprovalFlow.Engine

variable {σ : Type}

/-- Compile and submit a diagram under a name; the answer is its process id. -/
def deploy (e : Engine σ) (options : CompilerOptions) (name : String) (d : Diagram) :
    EStateM FlowError σ String :=
  match d.compile options name with
  | .ok definition => e.submit definition
  | .error err => throw err

/-- Read, compile and submit the text of a diagram. -/
def deployText (e : Engine σ) (options : CompilerOptions) (name text : String) :
    EStateM FlowError σ String :=
  match Diagram.ofText options.unknownNodes text with
  | .ok d => e.deploy options name d
  | .error err => throw err

end ApprovalFlow.Engine
