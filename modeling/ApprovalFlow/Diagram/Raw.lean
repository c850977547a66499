import ApprovalFlow.Json.Record
import ApprovalFlow.Json.Scope

/-!
# Raw diagrams

Diagrams exactly as the editor stores them: kinds are texts, and properties are any documents.

- `RawDiagram`: its nodes and edges.
- `RawDiagram.ofJson`, `RawDiagram.toJson`: reading and writing.
- `RawDiagram.scope`: the parts of a document that reading looks at.
-/

namespace ApprovalFlow

/-- A stored node. -/
structure RawNode where
  id : String
  /-- The written kind, which need not be known. -/
  type : String
  /-- The bag of properties; null if there is none. -/
  properties : Json

/-- A stored edge. -/
structure RawEdge where
  id : String
  source : String
  target : String
  /-- The bag of properties; null if there is none. -/
  properties : Json

/-- A stored diagram. -/
structure RawDiagram where
  nodes : List RawNode
  edges : List RawEdge

namespace RawDiagram

/-- A bag of properties, in canonical form. -/
@[reducible] def bagField : Json.Field := ⟨"properties", [], Json, Json.readAny, some .null⟩

/-- The layout of a stored node. -/
def nodeLayout : Json.Layout RawNode where
  name := "RawNode"
  fields := [Json.textField "id", Json.textField "type", bagField]
  build := fun (id, type, properties, ()) => ⟨id, type, properties⟩

/-- The layout of a stored edge. -/
def edgeLayout : Json.Layout RawEdge where
  name := "RawEdge"
  fields := [
    Json.optionalText "id",
    Json.textField "sourceNodeId",
    Json.textField "targetNodeId",
    bagField]
  build := fun (id, source, target, properties, ()) => ⟨id, source, target, properties⟩

/-- The layout of a stored diagram. -/
def layout : Json.Layout RawDiagram where
  name := "RawDiagram"
  fields := [
    ⟨"nodes", [], List RawNode, Json.readList nodeLayout.read, some []⟩,
    ⟨"edges", [], List RawEdge, Json.readList edgeLayout.read, some []⟩]
  build := fun (nodes, edges, ()) => ⟨nodes, edges⟩

/-- The parts of a document that are read as a diagram: all fields of the nodes and edges. -/
def scope : Json.Scope :=
  .record [
    ("nodes", .list (.record [("id", .whole), ("type", .whole), ("properties", .whole)])),
    ("edges", .list (.record [("id", .whole), ("sourceNodeId", .whole), ("targetNodeId", .whole),
      ("properties", .whole)]))]

/-- The diagram that a document stores. -/
def ofJson (j : Json) : Except Json.Mismatch RawDiagram := layout.read j

/-- The document of a stored node. -/
def nodeToJson (n : RawNode) : Json :=
  .object [("id", .text n.id), ("type", .text n.type), ("properties", n.properties)]

/-- The document of a stored edge. -/
def edgeToJson (e : RawEdge) : Json :=
  .object [("id", .text e.id), ("sourceNodeId", .text e.source),
    ("targetNodeId", .text e.target), ("properties", e.properties)]

/-- The document that stores a diagram. -/
def toJson (d : RawDiagram) : Json :=
  .object [("nodes", .ofList nodeToJson d.nodes), ("edges", .ofList edgeToJson d.edges)]

end RawDiagram

end ApprovalFlow
