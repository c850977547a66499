import ApprovalFlow.Dispatch.Decide
import ApprovalFlow.Proofs.Definition.Table

/-!
# Finding nodes for a decision

A decision finds the gateways after a node and the heads of a gateway's branches by going through the
table of all nodes and asking each for its predecessors. What it finds are nodes of the definition,
each once and in ascending order; if the ids of the nodes differ, it finds all there are.
-/

namespace ApprovalFlow

namespace Snapshot

variable {nodes : List ProcessNode} {tasks : List Task} {id x : String}

theorem branchHeads_pairwise (nodes : List ProcessNode) (tasks : List Task) (id : String) :
    ((ofParts (.ofList nodes) tasks).branchHeads id).Pairwise (· < ·) :=
  NodeTable.ids_filter_values_pairwise nodes _

theorem joinsAfter_pairwise (nodes : List ProcessNode) (tasks : List Task) (id : String)
    (policy : Option JoinPolicy) :
    ((ofParts (.ofList nodes) tasks).joinsAfter id policy).Pairwise (· < ·) :=
  NodeTable.ids_filter_values_pairwise nodes _

/-- The parents of a node that is there are the nodes there that it lists, in order. -/
theorem parents_eq {s : Snapshot} {n : ProcessNode} (h : s.nodes.find? id = some n) :
    s.parents id = n.predecessorIds.filterMap s.nodes.find? := by
  unfold parents
  rw [h]

/-! ## Whether or not ids repeat -/

theorem mem_branchHeads_iff_find? :
    x ∈ (ofParts (.ofList nodes) tasks).branchHeads id ↔
      ∃ n, (NodeTable.ofList nodes).find? x = some n ∧ id ∈ n.predecessorIds := by
  refine NodeTable.mem_ids_filter_values.trans (exists_congr fun n => and_congr_right fun _ => ?_)
  exact List.contains_iff_mem

theorem mem_joinsAfter_iff_find? {policy : Option JoinPolicy} :
    x ∈ (ofParts (.ofList nodes) tasks).joinsAfter id policy ↔
      ∃ g, (NodeTable.ofList nodes).find? x = some g ∧ g.isConcurrentJoin = true ∧
        (policy = none ∨ g.joinPolicy? = policy) ∧ id ∈ g.predecessorIds := by
  refine NodeTable.mem_ids_filter_values.trans (exists_congr fun g => and_congr_right fun _ => ?_)
  simp only [Bool.and_eq_true, Bool.or_eq_true, Option.isNone_iff_eq_none, beq_iff_eq,
    List.contains_iff_mem, and_assoc]

/-- A parent of a node is a node that it lists. -/
theorem of_mem_parents {m : ProcessNode} (h : m ∈ (ofParts (.ofList nodes) tasks).parents id) :
    m ∈ nodes ∧ ∃ n ∈ nodes, n.id = id ∧ m.id ∈ n.predecessorIds := by
  unfold parents ofParts at h
  dsimp only at h
  cases hn : (NodeTable.ofList nodes).find? id with
  | none =>
    rw [hn] at h
    cases h
  | some n =>
    rw [hn] at h
    obtain ⟨x, hx, hfind⟩ := List.mem_filterMap.mp h
    obtain ⟨hm, rfl⟩ := NodeTable.of_find?_ofList hfind
    obtain ⟨hn, hid⟩ := NodeTable.of_find?_ofList hn
    exact ⟨hm, n, hn, hid, hx⟩

/-! ## If ids differ -/

variable (hnodes : (nodes.map (·.id)).Nodup)

include hnodes

/-- **The heads of a gateway's branches are the nodes that list it.** -/
theorem mem_branchHeads_iff :
    x ∈ (ofParts (.ofList nodes) tasks).branchHeads id ↔
      ∃ n ∈ nodes, n.id = x ∧ id ∈ n.predecessorIds := by
  rw [mem_branchHeads_iff_find?]
  simp only [NodeTable.find?_ofList_iff hnodes, and_assoc]

/-- **The joins after a node are the parallel and inclusion gateways that list it.** -/
theorem mem_joinsAfter_iff {policy : Option JoinPolicy} :
    x ∈ (ofParts (.ofList nodes) tasks).joinsAfter id policy ↔
      ∃ g ∈ nodes, g.id = x ∧ g.isConcurrentJoin = true ∧
        (policy = none ∨ g.joinPolicy? = policy) ∧ id ∈ g.predecessorIds := by
  rw [mem_joinsAfter_iff_find?]
  simp only [NodeTable.find?_ofList_iff hnodes, and_assoc]

/-- **The parents of a node are the nodes that it lists.** -/
theorem mem_parents_iff {m : ProcessNode} :
    m ∈ (ofParts (.ofList nodes) tasks).parents id ↔
      m ∈ nodes ∧ ∃ n ∈ nodes, n.id = id ∧ m.id ∈ n.predecessorIds := by
  constructor
  · exact of_mem_parents
  · rintro ⟨hm, n, hn, hid, hlists⟩
    have hfind := (NodeTable.find?_ofList_iff hnodes).mpr ⟨hm, rfl⟩
    have hnode : (ofParts (.ofList nodes) tasks).nodes.find? id = some n :=
      (NodeTable.find?_ofList_iff hnodes).mpr ⟨hn, hid⟩
    rw [parents_eq hnode]
    exact List.mem_filterMap.mpr ⟨m.id, hlists, hfind⟩

end Snapshot

end ApprovalFlow
