import ApprovalFlow.EventName
import ApprovalFlow.SortedMap

/-!
# Process definitions

The flat list of nodes that the host engine runs.

- `JoinPolicy`: when a gateway goes on, with the engine's code of each policy.
- `ProcessNode`: a node of a definition; `ProcessNode.isSystemAuto` and `ProcessNode.isProxy` tell
  the nodes that the system completes and the bridges between gateways.
- `ProcessDefinition`: a name and the nodes.
- `NodeTable`: the nodes by their ids.
-/

namespace ApprovalFlow

/-- What a node of a definition is to the engine. -/
inductive ProcessNodeType where
  | start
  | approval
  | gateway
  | finish
  deriving DecidableEq, Repr

/-- When a gateway goes on. -/
inductive JoinPolicy where
  /-- as soon as the branches that were taken arrive -/
  | onArrival
  /-- when every branch has arrived -/
  | waitAll
  /-- an exclusive choice, which may follow another one -/
  | chainedCondition
  deriving DecidableEq, Repr

namespace JoinPolicy

/-- The engine's code of a policy. -/
def code : JoinPolicy → Nat
  | .onArrival => 0
  | .waitAll => 1
  | .chainedCondition => 3

/-- The policy with a code. -/
def ofCode? : Nat → Option JoinPolicy
  | 0 => some .onArrival
  | 1 => some .waitAll
  | 3 => some .chainedCondition
  | _ => none

/-- Does a gateway with the policy join several branches at once? -/
def isConcurrent : JoinPolicy → Bool
  | .onArrival | .waitAll => true
  | .chainedCondition => false

end JoinPolicy

/-- A branch of a condition: where to go if the expression holds. -/
structure GatewayCondition where
  expression : String
  target : String
  deriving DecidableEq, Repr

/-- How a gateway routes and joins. -/
structure GatewayConfig where
  /-- The branches of a condition. -/
  conditions : List GatewayCondition := []
  /-- The nodes that a parallel or inclusion gateway routes to. -/
  mandatorySuccessors : List String := []
  joinPolicy : JoinPolicy
  deriving DecidableEq, Repr

/-- The nodes that a gateway routes to. -/
def GatewayConfig.targets (g : GatewayConfig) : List String :=
  g.conditions.map (·.target) ++ g.mandatorySuccessors

/-- A node of a process definition. -/
structure ProcessNode where
  id : String
  name : String
  type : ProcessNodeType
  approverIds : List String := []
  predecessorIds : List String := []
  gateway : Option GatewayConfig := none
  /-- The events that the node subscribes to, by their texts. -/
  taskFinishEvents : List String := []
  nodeStartEvents : List String := []
  nodeEndEvents : List String := []
  /-- Must every approver agree? -/
  cosigned : Bool := false
  deriving DecidableEq, Repr

/-- The approver that stands for the system. -/
def systemApprover : String := "sys_auto"

/-- How the id of every bridge between two gateways starts. -/
def proxyMark : String := "proxy_"

/-- Does the text start with the mark of bridges? -/
def hasProxyMark (id : String) : Bool := proxyMark.toList.isPrefixOf id.toList

namespace ProcessNode

/-- Is the system the only approver? Its tasks are passed without anybody acting on them. -/
def isSystemAuto (n : ProcessNode) : Bool := n.approverIds == [systemApprover]

/-- Is the node a bridge between two gateways? -/
def isProxy (n : ProcessNode) : Bool := hasProxyMark n.id && n.isSystemAuto

/-- The join policy of a node that has one. -/
def joinPolicy? (n : ProcessNode) : Option JoinPolicy := n.gateway.map (·.joinPolicy)

/-- Does the node subscribe to the event? -/
def subscribesTo (n : ProcessNode) (e : EventName) : Bool :=
  n.taskFinishEvents.contains e.text || n.nodeStartEvents.contains e.text
    || n.nodeEndEvents.contains e.text

/-- Is the node a parallel or an inclusion gateway? -/
def isConcurrentJoin (n : ProcessNode) : Bool :=
  n.type == .gateway && (n.joinPolicy?.map JoinPolicy.isConcurrent).getD false

end ProcessNode

/-- The nodes of a definition by their ids. -/
abbrev NodeTable := SortedMap String ProcessNode

/-- The table of a list of nodes; of nodes with one id the last counts. -/
def NodeTable.ofList (nodes : List ProcessNode) : NodeTable :=
  SortedMap.ofList (nodes.map fun n => (n.id, n))

/-- What is submitted to the host engine. -/
structure ProcessDefinition where
  name : String
  nodes : List ProcessNode
  deriving DecidableEq, Repr

namespace ProcessDefinition

/-- The first node with the id. -/
def node? (d : ProcessDefinition) (id : String) : Option ProcessNode :=
  d.nodes.find? fun n => n.id == id

/-- The nodes by their ids. -/
def table (d : ProcessDefinition) : NodeTable := .ofList d.nodes

end ProcessDefinition

end ApprovalFlow
