import ApprovalFlow.Definition.Basic
import ApprovalFlow.Diagram.Kind

/-!
# Bridges between gateways

The host engine cannot route from a gateway straight into a parallel or inclusion gateway. On every
such edge stands a *proxy*: an approval node of the system's, whose task is passed as soon as the
engine creates it.

- `needsProxy`: the edges that need one.
- `proxyId`: its id.
- `proxyNode`: the node.
-/

namespace ApprovalFlow

/-- Does an edge between nodes of these kinds need a proxy? -/
def needsProxy (source target : NodeKind) : Bool := source.isGateway && target.isConcurrent

/-- The id of the proxy on the edge between two nodes. -/
def proxyId (source target : String) : String := proxyMark ++ source ++ "_" ++ target

/-- The event that a node in front of a gateway of the kind waits for. -/
def completionEvents : NodeKind → List String
  | .parallel => [EventName.taskParallelPass.text]
  | .inclusion => [EventName.taskInclusionPass.text]
  | .start | .finish | .user | .condition | .automation => []

/-- The proxy on the edge between two nodes. Like an approval step in front of the same gateway, it
subscribes to the gateway's completion event. -/
def proxyNode (source target : String) (targetKind : NodeKind) : ProcessNode where
  id := proxyId source target
  name := "auto pass " ++ source ++ " -> " ++ target
  type := .approval
  approverIds := [systemApprover]
  predecessorIds := [source]
  taskFinishEvents := completionEvents targetKind
  nodeStartEvents := [EventName.taskNodeStart.text]
  nodeEndEvents := [EventName.taskNodeEnd.text]

end ApprovalFlow
