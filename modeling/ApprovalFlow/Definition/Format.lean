import ApprovalFlow.Definition.Basic
import ApprovalFlow.Json.Record

/-!
# Definitions as documents

- `ProcessDefinition.toJson`: the document of a definition; a node without a gateway has no member
  for it.
- `ProcessDefinition.ofJson`: the definition that a document holds.
-/

namespace ApprovalFlow

namespace ProcessNodeType

/-- The written name of a type. -/
def name : ProcessNodeType → String
  | .start => "start"
  | .approval => "approval"
  | .gateway => "gateway"
  | .finish => "end"

/-- The types under their written names. -/
def offered : List (String × ProcessNodeType) :=
  [("start", .start), ("approval", .approval), ("gateway", .gateway), ("end", .finish)]

/-- The type that a document names. -/
def ofJson : Json → Except Json.Mismatch ProcessNodeType :=
  Json.readChoice offered Json.readNothing

end ProcessNodeType

/-- The policy whose code a document is. -/
def JoinPolicy.ofJson (j : Json) : Except Json.Mismatch JoinPolicy := do
  let code ← Json.readByte j
  match JoinPolicy.ofCode? code with
  | some policy => .ok policy
  | none => .error (.unknownJoinPolicy code)

namespace ProcessDefinition

/-! ## Reading -/

/-- The layout of a branch of a condition. -/
def conditionLayout : Json.Layout GatewayCondition where
  name := "GatewayCondition"
  fields := [Json.textField "expression", Json.textField "targetNodeId"]
  build := fun (expression, target, ()) => ⟨expression, target⟩

/-- The layout of a gateway's routing. -/
def gatewayLayout : Json.Layout GatewayConfig where
  name := "GatewayConfig"
  fields := [
    ⟨"conditions", [], List GatewayCondition, Json.readList conditionLayout.read, some []⟩,
    Json.optionalTexts "mandatorySuccessors",
    ⟨"joinPolicy", [], JoinPolicy, JoinPolicy.ofJson, none⟩]
  build := fun (conditions, mandatorySuccessors, joinPolicy, ()) =>
    ⟨conditions, mandatorySuccessors, joinPolicy⟩

/-- The layout of a node. -/
def nodeLayout : Json.Layout ProcessNode where
  name := "CompiledNode"
  fields := [
    Json.textField "nodeId",
    Json.textField "nodeName",
    ⟨"nodeType", [], ProcessNodeType, ProcessNodeType.ofJson, none⟩,
    Json.optionalTexts "approverIds",
    Json.optionalTexts "predecessorIds",
    ⟨"gatewayConfig", [], Option GatewayConfig, Json.readOptional gatewayLayout.read, some none⟩,
    Json.optionalTexts "taskFinishEvents",
    Json.optionalTexts "nodeStartEvents",
    Json.optionalTexts "nodeEndEvents",
    Json.optionalBool "isCosigned"]
  build := fun (id, name, type, approverIds, predecessorIds, gateway, taskFinishEvents,
      nodeStartEvents, nodeEndEvents, cosigned, ()) =>
    ⟨id, name, type, approverIds, predecessorIds, gateway, taskFinishEvents, nodeStartEvents,
      nodeEndEvents, cosigned⟩

/-- The layout of a definition. -/
def layout : Json.Layout ProcessDefinition where
  name := "ProcessDefinition"
  fields := [
    Json.textField "name",
    ⟨"nodes", [], List ProcessNode, Json.readList nodeLayout.read, none⟩]
  build := fun (name, nodes, ()) => ⟨name, nodes⟩

/-- The definition that a document holds. -/
def ofJson (j : Json) : Except Json.Mismatch ProcessDefinition := layout.read j

/-! ## Writing -/

/-- The document of a branch of a condition. -/
def conditionToJson (c : GatewayCondition) : Json :=
  .object [("expression", .text c.expression), ("targetNodeId", .text c.target)]

/-- The document of a gateway's routing. -/
def gatewayToJson (g : GatewayConfig) : Json :=
  .object [
    ("conditions", .ofList conditionToJson g.conditions),
    ("mandatorySuccessors", .texts g.mandatorySuccessors),
    ("joinPolicy", .integer g.joinPolicy.code)]

/-- The document of a node. -/
def nodeToJson (n : ProcessNode) : Json :=
  .object (
    [("nodeId", .text n.id),
      ("nodeName", .text n.name),
      ("nodeType", .text n.type.name),
      ("approverIds", .texts n.approverIds),
      ("predecessorIds", .texts n.predecessorIds)]
    ++ (match n.gateway with
      | some g => [("gatewayConfig", gatewayToJson g)]
      | none => [])
    ++ [("taskFinishEvents", .texts n.taskFinishEvents),
      ("nodeStartEvents", .texts n.nodeStartEvents),
      ("nodeEndEvents", .texts n.nodeEndEvents),
      ("isCosigned", .bool n.cosigned)])

/-- The document of a definition. -/
def toJson (d : ProcessDefinition) : Json :=
  .object [("name", .text d.name), ("nodes", .ofList nodeToJson d.nodes)]

end ProcessDefinition

end ApprovalFlow
