import ApprovalFlow.Definition.Proxy
import ApprovalFlow.Diagram.Adjacency

/-!
# Compiling diagrams

Every node of a diagram becomes one node of the definition, in order. In front of it stand the
proxies on the edges into it that need one, unless a proxy with the same id stands there already.

- `Blueprint`: a diagram with its neighbours and the expression for branches without one.
- `Blueprint.lower`: the node that a diagram's node becomes.
- `Blueprint.lowerAll`, `Diagram.compile`: all of them, with the proxies.
-/

namespace ApprovalFlow

/-- What the compilation of one diagram looks at. -/
structure Blueprint where
  diagram : Diagram
  adjacency : Adjacency
  /-- The expression of branches whose edge has none. -/
  defaultExpression : String

namespace Blueprint

/-- The blueprint of a diagram. -/
def ofDiagram (options : CompilerOptions) (d : Diagram) : Blueprint :=
  ⟨d, .ofDiagram d, options.defaultExpression⟩

/-! ## Links -/

/-- The predecessors of a node that the adjacency knows the kind of, with their kinds. -/
def incoming (b : Blueprint) (n : DiagramNode) : List (String × NodeKind) :=
  (b.adjacency.predecessors n.id).filterMap fun p => (b.adjacency.kind? p).map fun k => (p, k)

/-- The predecessors that the engine sees: a proxy where one is needed. -/
def predecessorIds (b : Blueprint) (n : DiagramNode) : List String :=
  (b.incoming n).map fun (p, kind) => if needsProxy kind n.kind then proxyId p n.id else p

/-- The proxies in front of a node whose ids are not among `emitted`. -/
def newProxies (b : Blueprint) (emitted : List String) (n : DiagramNode) : List ProcessNode :=
  (b.incoming n).filterMap fun (p, kind) =>
    if needsProxy kind n.kind && !emitted.contains (proxyId p n.id) then
      some (proxyNode p n.id n.kind)
    else none

/-- Where the engine routes to from a node: the proxy if one is needed, else the target itself. -/
def successorId (b : Blueprint) (n : DiagramNode) (target : String) : String :=
  match b.adjacency.kind? target with
  | some kind => if needsProxy n.kind kind then proxyId n.id target else target
  | none => target

/-! ## Subscriptions -/

/-- The completion events of a task node in front of concurrent gateways, those for parallel ones
first. -/
def gatewayCompletionEvents (b : Blueprint) (id : String) : List String :=
  (if b.adjacency.hasSuccessorOfKind id .parallel then [EventName.taskParallelPass.text] else [])
    ++ if b.adjacency.hasSuccessorOfKind id .inclusion then [EventName.taskInclusionPass.text]
      else []

/-- Is there a parent and a parent of it whose kinds are so? -/
def hasAncestors (b : Blueprint) (id : String) (parent grandparent : NodeKind → Bool) : Bool :=
  (b.adjacency.predecessors id).any fun p =>
    (b.adjacency.kind? p).any parent
      && (b.adjacency.predecessors p).any fun g => (b.adjacency.kind? g).any grandparent

/-- The events by which a rejected task closes the branches beside its own: those of a concurrent
gateway behind a condition, and of a condition behind a concurrent gateway. -/
def rejectCleanupEvents (b : Blueprint) (id : String) : List String :=
  (if b.hasAncestors id NodeKind.isConcurrent (· == .condition) then
      [EventName.concurrentRejectCleanup.text] else [])
    ++ if b.hasAncestors id (· == .condition) NodeKind.isConcurrent then
      [EventName.gatewayConditionReject.text] else []

/-! ## Nodes -/

/-- A node of the definition with nothing but its name and predecessors. A node without a name is
called by its id. -/
def base (b : Blueprint) (n : DiagramNode) (type : ProcessNodeType) : ProcessNode where
  id := n.id
  name := if n.name.isEmpty then n.id else n.name
  type := type
  predecessorIds := b.predecessorIds n

/-- An approval step of people. -/
def lowerUser (b : Blueprint) (n : DiagramNode) (p : UserProperties) : ProcessNode :=
  { b.base n .approval with
    approverIds := p.approverIds
    cosigned := p.cosigned
    taskFinishEvents := b.gatewayCompletionEvents n.id ++ b.rejectCleanupEvents n.id
    nodeStartEvents :=
      EventName.taskNodeStart.text :: if p.carbonCopy then [EventName.notifyCC.text] else []
    nodeEndEvents := [EventName.taskNodeEnd.text] }

/-- A step of the system's. -/
def lowerAutomation (b : Blueprint) (n : DiagramNode) (p : AutomationProperties) : ProcessNode :=
  { b.base n .approval with
    approverIds := [systemApprover]
    taskFinishEvents := b.gatewayCompletionEvents n.id
    nodeStartEvents :=
      EventName.automationStart.text :: if p.notifies then [EventName.notify.text] else []
    nodeEndEvents := [EventName.taskNodeEnd.text] }

/-- The edges whose target was not the target of an earlier one. -/
def firstPerTarget : (seen : List String) → List DiagramEdge → List DiagramEdge
  | _, [] => []
  | seen, e :: rest =>
    if seen.contains e.target then firstPerTarget seen rest
    else e :: firstPerTarget (e.target :: seen) rest

/-- The branches of a condition: one for each target, with the expression of the first edge to it,
or the default expression if that is blank. -/
def branches (b : Blueprint) (n : DiagramNode) : List GatewayCondition :=
  let edges := b.diagram.edges.filter fun e =>
    e.source == n.id && (b.adjacency.kind? e.target).isSome
  (firstPerTarget [] edges).map fun e =>
    { expression :=
        if Text.isAllBlank e.properties.expression then b.defaultExpression
        else e.properties.expression
      target := b.successorId n e.target }

/-- An exclusive choice. -/
def lowerCondition (b : Blueprint) (n : DiagramNode) : ProcessNode :=
  { b.base n .gateway with
    gateway := some { conditions := b.branches n, joinPolicy := .chainedCondition } }

/-- A gateway that routes to all its successors. -/
def lowerGateway (b : Blueprint) (n : DiagramNode) (policy : JoinPolicy) : ProcessNode :=
  { b.base n .gateway with
    gateway := some
      { mandatorySuccessors := (b.adjacency.successors n.id).map (b.successorId n)
        joinPolicy := policy } }

/-- The node that a diagram's node becomes, unless it needs properties that it does not have. -/
def lower (b : Blueprint) (n : DiagramNode) : Except FlowError ProcessNode :=
  match n.kind with
  | .start => .ok (b.base n .start)
  | .finish => .ok { b.base n .finish with nodeStartEvents := [EventName.processEnd.text] }
  | .user =>
    match n.properties with
    | .user p => .ok (b.lowerUser n p)
    | _ => .error (.foreignProperties n.id n.kind.name)
  | .automation =>
    match n.properties with
    | .automation p => .ok (b.lowerAutomation n p)
    | _ => .error (.foreignProperties n.id n.kind.name)
  | .condition => .ok (b.lowerCondition n)
  | .parallel => .ok (b.lowerGateway n .waitAll)
  | .inclusion => .ok (b.lowerGateway n .onArrival)

/-- The nodes of the definition for a list of nodes, each behind its proxies; `emitted` are the ids
of the proxies before them. -/
def lowerAll (b : Blueprint) : (emitted : List String) → List DiagramNode →
    Except FlowError (List ProcessNode)
  | _, [] => .ok []
  | emitted, n :: rest =>
    let proxies := b.newProxies emitted n
    match b.lower n with
    | .ok node =>
      (b.lowerAll (emitted ++ proxies.map (·.id)) rest).map fun nodes => proxies ++ node :: nodes
    | .error e => .error e

end Blueprint

/-- The definition of a diagram, under a name. -/
def Diagram.compile (options : CompilerOptions) (name : String) (d : Diagram) :
    Except FlowError ProcessDefinition :=
  ((Blueprint.ofDiagram options d).lowerAll [] d.nodes).map (⟨name, ·⟩)

end ApprovalFlow
