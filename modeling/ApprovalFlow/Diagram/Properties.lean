import ApprovalFlow.Diagram.Kind
import ApprovalFlow.Error
import ApprovalFlow.Json.Record

/-!
# Properties

What the editor stores with a node or an edge. Each kind of node has its own record; all fields may
be left out, and a missing or null bag gives the record with nothing set.

- `UserProperties`, `AutomationProperties`, `EdgeProperties`: the records with more than a name.
- `NodeProperties`: the properties of a node of some kind.
- `NodeProperties.ofBag`, `EdgeProperties.ofBag`: properties from a bag.
-/

namespace ApprovalFlow

/-- The properties of an approval step assigned to people. -/
structure UserProperties where
  name : String := ""
  /-- Who may approve. -/
  approverIds : List String := []
  /-- Must every approver agree? -/
  cosigned : Bool := false
  routingRule : String := ""
  templateField : String := ""
  /-- Are the approvers notified as well? -/
  carbonCopy : Bool := false
  deriving DecidableEq, Repr

/-- The properties of a step that the system carries out. -/
structure AutomationProperties where
  name : String := ""
  /-- Is somebody notified when the step starts? -/
  notifies : Bool := false
  notifyMethods : List String := []
  deriving DecidableEq, Repr

/-- The properties of an edge. Only edges that leave a condition use the expression. -/
structure EdgeProperties where
  name : String := ""
  expression : String := ""
  deriving DecidableEq, Repr

/-- The properties of a node. -/
inductive NodeProperties where
  | start (name : String)
  | finish (name : String)
  | user (properties : UserProperties)
  | condition (name : String)
  /-- a parallel or an inclusion gateway -/
  | gateway (name : String)
  | automation (properties : AutomationProperties)
  deriving DecidableEq, Repr

namespace NodeProperties

/-- The displayed name, empty if none is set. -/
def name : NodeProperties → String
  | .start name => name
  | .finish name => name
  | .user p => p.name
  | .condition name => name
  | .gateway name => name
  | .automation p => p.name

/-! ## Layouts -/

/-- The layout of a record with nothing but a name. -/
def nameLayout (record : String) : Json.Layout String where
  name := record
  fields := [Json.optionalText "name"]
  build := fun (name, ()) => name

/-- The layout of the properties of an approval step. -/
def userLayout : Json.Layout UserProperties where
  name := "UserProperty"
  fields := [
    Json.optionalText "name",
    Json.optionalTexts "approvedUserIds",
    Json.optionalBool "isCosigned",
    Json.optionalText "routingRule",
    Json.optionalText "templateField",
    Json.optionalBool "isCC" ["isCc"]]
  build := fun (name, approverIds, cosigned, routingRule, templateField, carbonCopy, ()) =>
    ⟨name, approverIds, cosigned, routingRule, templateField, carbonCopy⟩

/-- The layout of the properties of an automated step. -/
def automationLayout : Json.Layout AutomationProperties where
  name := "AutomationProperty"
  fields := [
    Json.optionalText "name",
    Json.optionalBool "isNotify",
    Json.optionalTexts "notifyMethods"]
  build := fun (name, notifies, notifyMethods, ()) => ⟨name, notifies, notifyMethods⟩

/-- The layout of the properties of an edge. -/
def edgeLayout : Json.Layout EdgeProperties where
  name := "EdgeProperty"
  fields := [
    Json.optionalText "name",
    Json.optionalText "expression" ["conditionExpression"]]
  build := fun (name, expression, ()) => ⟨name, expression⟩

/-! ## Bags -/

/-- The record in a bag; a bag of null gives the record with nothing set. -/
def readBag {α : Type} (owner kind : String) (layout : Json.Layout α) (unset : α) :
    Json → Except FlowError α
  | .null => .ok unset
  | bag => (layout.read bag).mapError (.properties owner kind)

/-- The properties of a node of the kind. -/
def ofBag (owner : String) (kind : NodeKind) (bag : Json) : Except FlowError NodeProperties :=
  match kind with
  | .start => (readBag owner kind.name (nameLayout "StartProperty") "" bag).map .start
  | .finish => (readBag owner kind.name (nameLayout "EndProperty") "" bag).map .finish
  | .user => (readBag owner kind.name userLayout {} bag).map .user
  | .condition => (readBag owner kind.name (nameLayout "ConditionProperty") "" bag).map .condition
  | .parallel => (readBag owner kind.name (nameLayout "GatewayProperty") "" bag).map .gateway
  | .inclusion => (readBag owner kind.name (nameLayout "GatewayProperty") "" bag).map .gateway
  | .automation => (readBag owner kind.name automationLayout {} bag).map .automation

end NodeProperties

/-- The properties of an edge. -/
def EdgeProperties.ofBag (owner : String) (bag : Json) : Except FlowError EdgeProperties :=
  NodeProperties.readBag owner "edge" NodeProperties.edgeLayout {} bag

end ApprovalFlow
