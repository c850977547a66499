import ApprovalFlow.Diagram.Basic
import ApprovalFlow.SortedMap

/-!
# Neighbours in a diagram

For every id of a node its kind and its neighbours, each neighbour once and in the order of the
first edge to it. Of nodes with one id the first counts. An edge with an end that is no node counts
for nothing.

- `Adjacency`: the neighbours of every node.
- `Adjacency.ofDiagram`: those of a diagram, by one pass over its nodes and one over its edges.
- `Adjacency.kind?`, `Adjacency.predecessors`, `Adjacency.successors`: the look-ups.
-/

namespace ApprovalFlow

/-- A node with its neighbours. -/
structure Neighbourhood where
  kind : NodeKind
  predecessors : List String := []
  successors : List String := []
  deriving DecidableEq, Repr

/-- The neighbours of every node of a diagram. -/
abbrev Adjacency := SortedMap String Neighbourhood

namespace Adjacency

/-- Add `s` to the end of a list that does not hold it. -/
def pushNew (l : List String) (s : String) : List String := if l.contains s then l else l ++ [s]

/-- Enter a node, unless one with its id is there. -/
def declare (a : Adjacency) (n : DiagramNode) : Adjacency := a.insertNew n.id { kind := n.kind }

/-- Change the neighbourhood of an id that is there. -/
def update (a : Adjacency) (id : String) (f : Neighbourhood → Neighbourhood) : Adjacency :=
  match a.find? id with
  | some n => a.insert id (f n)
  | none => a

/-- Enter an edge between two nodes that are there. -/
def link (a : Adjacency) (e : DiagramEdge) : Adjacency :=
  if a.contains e.source && a.contains e.target then
    (a.update e.source fun n => { n with successors := pushNew n.successors e.target }).update
      e.target fun n => { n with predecessors := pushNew n.predecessors e.source }
  else a

/-- The neighbours of every node of the diagram. -/
def ofDiagram (d : Diagram) : Adjacency :=
  d.edges.foldl link (d.nodes.foldl declare SortedMap.empty)

/-- The kind of the node with the id. -/
def kind? (a : Adjacency) (id : String) : Option NodeKind := (a.find? id).map (·.kind)

/-- The sources of the edges into the node. -/
def predecessors (a : Adjacency) (id : String) : List String :=
  ((a.find? id).map (·.predecessors)).getD []

/-- The targets of the edges out of the node. -/
def successors (a : Adjacency) (id : String) : List String :=
  ((a.find? id).map (·.successors)).getD []

/-- Is a node of the kind among the successors? -/
def hasSuccessorOfKind (a : Adjacency) (id : String) (kind : NodeKind) : Bool :=
  (a.successors id).any fun s => a.kind? s == some kind

end Adjacency

end ApprovalFlow
