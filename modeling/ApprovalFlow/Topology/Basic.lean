import ApprovalFlow.Definition.Basic

/-!
# Topologies

How the nodes of a definition follow each other once the proxies are taken out.

- `Topology`: the nodes, and the successors and predecessors of each.
- `Topology.ofGraph`: from successors found elsewhere.
- `businessSources`: the nodes that a link comes from, through any number of proxies.
- `Topology.ofNodes`: from a list of nodes.
- `Topology.logicalPrev`: the last node before a link where a person acted.
-/

namespace ApprovalFlow

/-- The nodes of a process, with the links between them. -/
structure Topology where
  nodes : NodeTable
  successors : SortedMap String (List String)
  predecessors : SortedMap String (List String)
  deriving DecidableEq

namespace Topology

/-- Add `s` to the end of the list under `k`, unless the list holds it. -/
def enter (m : SortedMap String (List String)) (k s : String) : SortedMap String (List String) :=
  m.alter k fun old =>
    let l := old.getD []
    if l.contains s then l else l ++ [s]

/-- The links turned round. Sources are taken in ascending order. -/
def transpose (successors : SortedMap String (List String)) : SortedMap String (List String) :=
  successors.entries.foldl (fun m (source, targets) =>
    targets.foldl (fun m target => enter m target source) m) SortedMap.empty

/-- The topology with the given successors. -/
def ofGraph (nodes : NodeTable) (successors : SortedMap String (List String)) : Topology :=
  ⟨nodes, successors, transpose successors⟩

/-! ## Links through proxies -/

/-- The ids of a table's nodes that are not among `seen`. -/
def unseen (nodes : NodeTable) (seen : List String) : List String :=
  nodes.keys.filter fun k => !seen.contains k

theorem length_unseen_cons {nodes : NodeTable} {seen : List String} {id : String}
    (hid : id ∈ nodes.keys) (hseen : seen.contains id = false) :
    (unseen nodes (id :: seen)).length < (unseen nodes seen).length := by
  have hsub : unseen nodes (id :: seen) = (unseen nodes seen).filter fun k => !(k == id) := by
    unfold unseen
    rw [List.filter_filter]
    refine List.filter_congr fun k _ => ?_
    simp only [List.contains_cons, Bool.not_or]
  rw [hsub]
  refine List.length_filter_lt_length_iff_exists.2 ⟨id, ?_, by simp⟩
  exact List.mem_filter.2 ⟨hid, by simp only [hseen, Bool.not_false]⟩

theorem mem_keys_of_find? {α : Type} {m : SortedMap String α} {id : String} {a : α}
    (h : m.find? id = some a) : id ∈ m.keys := by
  unfold SortedMap.find? at h
  obtain ⟨e, he, _⟩ := Option.map_eq_some_iff.1 h
  have hk := List.find?_some he
  have hk : compare id e.1 = .eq := by simpa using hk
  rw [Std.LawfulEqCmp.compare_eq_iff_eq] at hk
  exact hk ▸ List.mem_map.2 ⟨e, List.mem_of_find?_eq_some he, rfl⟩

/-- The nodes that the links on the stack come from: a node that is no proxy is its own source, and
a proxy has the sources of its predecessors. Ids of no node have none. Each id is looked at once. -/
def sourcesFrom (nodes : NodeTable) (seen stack : List String) : List String :=
  match stack with
  | [] => []
  | id :: rest =>
    if hseen : seen.contains id = false then
      match h : nodes.find? id with
      | some n =>
        have := length_unseen_cons (mem_keys_of_find? h) hseen
        if n.isProxy then sourcesFrom nodes (id :: seen) (n.predecessorIds ++ rest)
        else id :: sourcesFrom nodes (id :: seen) rest
      | none => sourcesFrom nodes seen rest
    else sourcesFrom nodes seen rest
termination_by ((unseen nodes seen).length, stack.length)

/-- The nodes that a link from `id` comes from. -/
def businessSources (nodes : NodeTable) (id : String) : List String := sourcesFrom nodes [] [id]

/-- Enter a node that is no proxy, with the links into it. -/
def place (nodes : NodeTable) (m : SortedMap String (List String)) (n : ProcessNode) :
    SortedMap String (List String) :=
  if n.isProxy then m
  else
    (n.predecessorIds.flatMap (businessSources nodes)).foldl (fun m source => enter m source n.id)
      (m.alter n.id fun old => old.getD [])

/-- The topology of a list of nodes. -/
def ofNodes (nodes : List ProcessNode) : Topology :=
  let table := NodeTable.ofList nodes
  ofGraph table (nodes.foldl (place table) SortedMap.empty)

/-! ## Look-ups -/

/-- The node with the id. -/
def node? (t : Topology) (id : String) : Option ProcessNode := t.nodes.find? id

/-- The nodes after a node. -/
def next (t : Topology) (id : String) : List String := (t.successors.find? id).getD []

/-- The nodes before a node. -/
def prev (t : Topology) (id : String) : List String := (t.predecessors.find? id).getD []

/-! ## The last node where a person acted -/

/-- Go back from `id` by first predecessors as long as the system completes the node, up to an id
seen before. -/
def walkBack (nodes : NodeTable) (seen : List String) (id : String) : String :=
  if hseen : seen.contains id = false then
    match h : nodes.find? id with
    | some n =>
      if n.isSystemAuto then
        match n.predecessorIds with
        | first :: _ =>
          have := length_unseen_cons (mem_keys_of_find? h) hseen
          walkBack nodes (id :: seen) first
        | [] => id
      else id
    | none => id
  else id
termination_by (unseen nodes seen).length

/-- The node where a person acted before the link from `id`: the first on the way back that the
system does not complete. The way ends also at a node without predecessors, at an id of no node,
and at the first id met twice. -/
def logicalPrev (t : Topology) (id : String) : String := walkBack t.nodes [] id

end Topology

end ApprovalFlow
