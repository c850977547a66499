import ApprovalFlow.Topology.Basic
import ApprovalFlow.Topology.Frontier

/-!
# Shortest paths

- `Topology.search`: a search by growing length; every node enters the frontier once.
- `Topology.findPath`: the path from one node to another, both ends included.
-/

namespace ApprovalFlow.Topology

/-- Go on from a trail to every successor not met before. -/
def spread (t : Topology) (trail : Trail) (seen : List String) (f : Frontier) :
    List String × Frontier :=
  (t.next trail.node).foldl (fun (seen, f) s =>
    if seen.contains s then (seen, f) else (s :: seen, f.push (trail.extend s))) (seen, f)

/-- The way that the frontier leads to `goal` by, empty if there is none. Each step takes one trail
out of the frontier; `fuel` bounds the steps. -/
def search (t : Topology) (goal : String) : (fuel : Nat) → (seen : List String) → Frontier → List String
  | 0, _, _ => []
  | fuel + 1, seen, f =>
    match f.pop? with
    | none => []
    | some (trail, f) =>
      if trail.node = goal then trail.path
      else
        let (seen, f) := t.spread trail seen f
        t.search goal fuel seen f

/-- A bound on the trails that ever enter the frontier: one for the beginning and one for each
link. -/
def searchBound (t : Topology) : Nat := t.successors.values.flatten.length + 1

/-- A shortest path from one node to another; empty if one of them is not listed, or if no path
leads from the first to the second. -/
def findPath (t : Topology) (source goal : String) : List String :=
  if t.successors.contains source && t.successors.contains goal then
    t.search goal t.searchBound [source] (Frontier.push #[] ⟨source, []⟩)
  else []

end ApprovalFlow.Topology
