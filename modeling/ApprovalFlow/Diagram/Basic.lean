import ApprovalFlow.Diagram.Properties
import ApprovalFlow.Diagram.Raw
import ApprovalFlow.Json.Reader

/-!
# Diagrams

A diagram whose nodes all have a known kind and read properties.

- `Diagram`: its nodes and edges.
- `Diagram.ofRaw`: the diagram that a stored one denotes.
- `Diagram.ofJson`, `Diagram.ofText`: a diagram from a document, and from its text.
-/

namespace ApprovalFlow

/-- A node of a diagram. The properties are those of its kind if the diagram was read; a diagram
that is put together by hand may hold others. -/
structure DiagramNode where
  id : String
  kind : NodeKind
  properties : NodeProperties
  deriving DecidableEq, Repr

/-- The displayed name of a node, empty if none is set. -/
def DiagramNode.name (n : DiagramNode) : String := n.properties.name

/-- An edge of a diagram. Its ends need not be nodes of the diagram. -/
structure DiagramEdge where
  id : String
  source : String
  target : String
  properties : EdgeProperties
  deriving DecidableEq, Repr

/-- A diagram. -/
structure Diagram where
  nodes : List DiagramNode
  edges : List DiagramEdge
  deriving DecidableEq, Repr

namespace Diagram

/-- The first node with the id. -/
def node? (d : Diagram) (id : String) : Option DiagramNode := d.nodes.find? fun n => n.id == id

/-! ## Reading -/

/-- The nodes of a stored diagram, and the ids of those left out because their kind is unknown. -/
def readNodes (policy : UnknownNodePolicy) :
    List RawNode → Except FlowError (List DiagramNode × List String)
  | [] => .ok ([], [])
  | n :: rest =>
    match NodeKind.ofName? n.type, policy with
    | none, .reject => .error (.unknownNodeType n.id n.type)
    | none, .skip => (readNodes policy rest).map fun r => (r.1, n.id :: r.2)
    | some kind, _ =>
      match NodeProperties.ofBag n.id kind n.properties with
      | .ok properties => (readNodes policy rest).map fun r => (⟨n.id, kind, properties⟩ :: r.1, r.2)
      | .error e => .error e

/-- The edges of a stored diagram that do not touch a node left out. -/
def readEdges (skipped : List String) : List RawEdge → Except FlowError (List DiagramEdge)
  | [] => .ok []
  | e :: rest =>
    if skipped.contains e.source || skipped.contains e.target then readEdges skipped rest
    else
      match EdgeProperties.ofBag e.id e.properties with
      | .ok properties =>
        (readEdges skipped rest).map (⟨e.id, e.source, e.target, properties⟩ :: ·)
      | .error err => .error err

/-- The diagram that a stored one denotes: all nodes first, then the edges, each in order. -/
def ofRaw (policy : UnknownNodePolicy) (raw : RawDiagram) : Except FlowError Diagram :=
  match readNodes policy raw.nodes with
  | .ok (nodes, skipped) => (readEdges skipped raw.edges).map (⟨nodes, ·⟩)
  | .error e => .error e

/-- The diagram that a document denotes. -/
def ofJson (policy : UnknownNodePolicy) (j : Json) : Except FlowError Diagram :=
  match RawDiagram.ofJson j.canonical with
  | .ok raw => ofRaw policy raw
  | .error cause => .error (.diagramShape false cause)

/-- The stored diagram in a text that is no document: there is one if what is wrong with the text
lies where nothing is read. -/
def rawWithin? (text : String) : Option RawDiagram :=
  (Json.ofTextWithin? RawDiagram.scope text).bind fun j => (RawDiagram.ofJson j).toOption

/-- The diagram that a text denotes. The members of the diagram, its nodes and its edges are taken
in the order of the text. -/
def ofText (policy : UnknownNodePolicy) (text : String) : Except FlowError Diagram :=
  match Json.ofText? text with
  | some j =>
    match RawDiagram.ofJson j with
    | .ok raw => ofRaw policy raw
    | .error cause => .error (.diagramShape true cause)
  | none =>
    match rawWithin? text with
    | some raw => ofRaw policy raw
    | none => .error .notADocument

end Diagram

end ApprovalFlow
