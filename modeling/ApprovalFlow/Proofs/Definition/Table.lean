import ApprovalFlow.Definition.Basic
import ApprovalFlow.Proofs.SortedMap
import Mathlib.Order.Compare
import Mathlib.Data.String.Basic

/-!
# Tables of nodes

The dispatcher and the topology see the nodes of a definition as a table by ids. Of nodes with one id
the table holds the last, and a choice of nodes, read off the table, comes in strictly ascending
order of ids. If the ids of the nodes differ, the table holds just these nodes, and a look-up finds
the node of the id.
-/

namespace ApprovalFlow

namespace NodeTable

variable {nodes : List ProcessNode} {id : String} {n : ProcessNode}

/-- **Of the nodes that have one id, a look-up finds the last.** -/
theorem find?_ofList (nodes : List ProcessNode) (id : String) :
    (ofList nodes).find? id = nodes.reverse.find? fun n => n.id == id := by
  have hvalue : (fun e : String × ProcessNode => e.2) ∘ (fun n => (n.id, n)) = fun n => n := rfl
  unfold ofList
  rw [SortedMap.find?_ofList, ← List.map_reverse, List.find?_map, Option.map_map, hvalue,
    Option.map_id']
  rfl

/-- A look-up finds a node of the list that has the id, whether or not ids repeat. -/
theorem of_find?_ofList (h : (ofList nodes).find? id = some n) : n ∈ nodes ∧ n.id = id := by
  rw [find?_ofList] at h
  exact ⟨List.mem_reverse.mp (List.mem_of_find?_eq_some h), by simpa using List.find?_some h⟩

/-- A look-up finds some node under the id of every node of the list, whether or not ids repeat. -/
theorem exists_find?_ofList (hn : n ∈ nodes) : ∃ m, (ofList nodes).find? n.id = some m := by
  rw [find?_ofList]
  exact Option.isSome_iff_exists.mp
    (List.find?_isSome.mpr ⟨n, List.mem_reverse.mpr hn, beq_self_eq_true n.id⟩)

/-- Where no two nodes share the id, it does not matter whether the first or the last is looked
for. -/
theorem find?_ofList_eq_find? (h : ∀ m ∈ nodes, ∀ n ∈ nodes, m.id = id → n.id = id → m = n) :
    (ofList nodes).find? id = nodes.find? fun n => n.id == id := by
  cases hlast : (ofList nodes).find? id with
  | none =>
    refine (List.find?_eq_none.mpr fun n hn hid => ?_).symm
    obtain ⟨m, hm⟩ := exists_find?_ofList hn
    rw [beq_iff_eq.mp hid, hlast] at hm
    cases hm
  | some m =>
    obtain ⟨hm, hid⟩ := of_find?_ofList hlast
    obtain ⟨n, hfirst⟩ := Option.isSome_iff_exists.mp
      (List.find?_isSome.mpr ⟨m, hm, beq_iff_eq.mpr hid⟩ : (nodes.find? fun n => n.id == id).isSome)
    have hn : n ∈ nodes := List.mem_of_find?_eq_some hfirst
    rw [hfirst, h m hm n hn hid (by simpa using List.find?_some hfirst)]

/-- **A choice of the nodes of a table has the ids under which a look-up finds one of the choice**,
whether or not ids repeat. -/
theorem mem_ids_filter_values {p : ProcessNode → Bool} :
    id ∈ ((ofList nodes).values.filter p).map (·.id) ↔
      ∃ n, (ofList nodes).find? id = some n ∧ p n = true := by
  simp only [List.mem_map, List.mem_filter, SortedMap.mem_values_iff]
  constructor
  · rintro ⟨n, ⟨⟨k, hfind⟩, hn⟩, rfl⟩
    obtain ⟨-, rfl⟩ := of_find?_ofList hfind
    exact ⟨n, hfind, hn⟩
  · rintro ⟨n, hfind, hn⟩
    exact ⟨n, ⟨⟨id, hfind⟩, hn⟩, (of_find?_ofList hfind).2⟩

/-- The nodes of a table come in strictly ascending order of ids. -/
theorem values_ofList_pairwise (nodes : List ProcessNode) :
    (ofList nodes).values.Pairwise (fun m n => m.id < n.id) := by
  refine List.pairwise_map.mpr ?_
  refine (ofList nodes).ascending.imp_of_mem fun {a b} ha hb hlt => ?_
  obtain ⟨-, hka⟩ := of_find?_ofList (SortedMap.mem_entries_iff.mp ha)
  obtain ⟨-, hkb⟩ := of_find?_ofList (SortedMap.mem_entries_iff.mp hb)
  rw [hka, hkb]
  exact compare_lt_iff_lt.mp hlt

/-- So do the ids of any choice of them. -/
theorem ids_filter_values_pairwise (nodes : List ProcessNode) (p : ProcessNode → Bool) :
    (((ofList nodes).values.filter p).map (·.id)).Pairwise (· < ·) :=
  List.pairwise_map.mpr ((values_ofList_pairwise nodes).filter p)

variable (hnodes : (nodes.map (·.id)).Nodup)

include hnodes

/-- **A look-up finds the node of the id.** -/
theorem find?_ofList_iff : (ofList nodes).find? id = some n ↔ n ∈ nodes ∧ n.id = id := by
  constructor
  · exact of_find?_ofList
  · rintro ⟨hn, rfl⟩
    unfold ofList
    rw [SortedMap.find?_ofList_eq_some_iff (by rwa [List.map_map])]
    exact List.mem_map.mpr ⟨n, hn, rfl⟩

/-- **The table holds the nodes of the list.** -/
theorem mem_values_ofList : n ∈ (ofList nodes).values ↔ n ∈ nodes := by
  rw [SortedMap.mem_values_iff]
  constructor
  · rintro ⟨id, h⟩
    exact (of_find?_ofList h).1
  · intro h
    exact ⟨n.id, (find?_ofList_iff hnodes).mpr ⟨h, rfl⟩⟩

/-- **The order in which the nodes are listed does not matter.** -/
theorem ofList_perm {nodes' : List ProcessNode} (h : nodes.Perm nodes') :
    ofList nodes = ofList nodes' :=
  SortedMap.ofList_perm (by rwa [List.map_map]) (h.map _)

end NodeTable

end ApprovalFlow
