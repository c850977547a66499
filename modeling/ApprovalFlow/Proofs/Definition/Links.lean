import ApprovalFlow.Proofs.Definition.Compile
import ApprovalFlow.Proofs.Dispatch.Lookup

/-!
# Links in both directions

A compiled definition says twice how its nodes follow each other: a gateway names the nodes that it
routes to, and every node names its predecessors. The engine routes by the first, the dispatcher
looks for the branches of a gateway by the second. The two are written at different rounds of the
compilation, each with proxies put in by itself.

- `Blueprint.Lowers.mem_predecessorIds_iff`, `Blueprint.Lowers.targets_eq`: whom a lowered node lists,
  and where it routes to.
- `Diagram.exists_node_of_link`: every id that a compiled node names is the id of a compiled node.
- `Diagram.Unambiguous.mem_targets_iff`: **a gateway routes to a node iff the node lists it.**
- `Diagram.links_agree`: both, with what follows for the branches that the dispatcher sees.
-/

namespace ApprovalFlow

/-- The nodes that a node routes to: the targets of a gateway's branches, or all its successors. -/
def ProcessNode.targets (n : ProcessNode) : List String :=
  (n.gateway.map GatewayConfig.targets).getD []

namespace Blueprint.Lowers

variable {options : CompilerOptions} {d : Diagram} {n : DiagramNode} {m : ProcessNode}

/-- A lowered node lists just the beginnings of the edges to the drawn one, each by its entry. -/
theorem mem_predecessorIds_iff (hm : (ofDiagram options d).Lowers n m)
    (hd : (d.nodes.map (·.id)).Nodup) (hn : n ∈ d.nodes) {x : String} :
    x ∈ m.predecessorIds ↔ ∃ q, d.HasEdge q n.id ∧ d.entryId q n.id = x := by
  rw [hm.predecessorIds, predecessorIds_eq hd hn, List.mem_map]
  simp only [Adjacency.mem_predecessors_iff]

/-- It lists the proxy of every edge to it that needs one. -/
theorem proxyId_mem_predecessorIds (hm : (ofDiagram options d).Lowers n m)
    (hd : (d.nodes.map (·.id)).Nodup) (hn : n ∈ d.nodes) {q : String} (hq : d.Proxied q n.id) :
    proxyId q n.id ∈ m.predecessorIds :=
  (hm.mem_predecessorIds_iff hd hn).mpr ⟨q, hq.1, if_pos hq.2⟩

/-- Of any other edge it lists the beginning itself. -/
theorem mem_predecessorIds_of_hasEdge (hm : (ofDiagram options d).Lowers n m)
    (hd : (d.nodes.map (·.id)).Nodup) (hn : n ∈ d.nodes) {q : String} (hedge : d.HasEdge q n.id)
    (hplain : d.bridges q n.id = false) : q ∈ m.predecessorIds := by
  have hentry : d.entryId q n.id = q := by
    unfold Diagram.entryId
    rw [hplain]
    rfl
  exact (hm.mem_predecessorIds_iff hd hn).mpr ⟨q, hedge, hentry⟩

/-- A lowered gateway routes just to the ends of the edges from the drawn one, each by its exit. -/
theorem targets_eq (hm : (ofDiagram options d).Lowers n m) (hd : (d.nodes.map (·.id)).Nodup)
    (hn : n ∈ d.nodes) (hg : m.type = .gateway) :
    m.targets = ((Adjacency.ofDiagram d).successors n.id).map (d.exitId n.id) := by
  have hpolicy : m.gateway.isSome := by
    have hsome : m.joinPolicy?.isSome := by
      have hkind : n.kind.nodeType = .gateway := hm.type.symm.trans hg
      rw [hm.joinPolicy]
      cases hk : n.kind <;> rw [hk] at hkind <;> first | rfl | cases hkind
    rwa [ProcessNode.joinPolicy?, Option.isSome_map] at hsome
  obtain ⟨g, hg⟩ := Option.isSome_iff_exists.mp hpolicy
  unfold ProcessNode.targets
  rw [hg]
  exact targets_lower hd hn hm hg

/-- A node that is no gateway routes nowhere. -/
theorem targets_eq_nil (hm : (ofDiagram options d).Lowers n m) (hg : m.type ≠ .gateway) :
    m.targets = [] := by
  have hpolicy : m.joinPolicy? = none := by
    rw [hm.type] at hg
    rw [hm.joinPolicy]
    cases hk : n.kind <;> rw [hk] at hg <;> first | rfl | exact absurd rfl hg
  unfold ProcessNode.targets
  rw [Option.map_eq_none_iff.mp hpolicy]
  rfl

end Blueprint.Lowers

namespace Diagram

variable {options : CompilerOptions} {name : String} {d : Diagram} {p : ProcessDefinition}

/-! ## No link leads nowhere -/

theorem exists_node_of_compile (hc : d.compile options name = .ok p) {id : String}
    (hid : ∃ n ∈ d.nodes, n.id = id) : ∃ t ∈ p.nodes, t.id = id := by
  obtain ⟨n, hn, rfl⟩ := hid
  obtain ⟨m, hm, hl⟩ := exists_lowered_of_compile hc hn
  exact ⟨m, hm, (Blueprint.lowers_of_lower hl).id⟩

/-- If no proxy has the id of a drawn node, the table has a lowered node under it. -/
theorem exists_find?_lowered (hd : (d.nodes.map (·.id)).Nodup)
    (hc : d.compile options name = .ok p) {n : DiagramNode} (hn : n ∈ d.nodes)
    (hid : ∀ q s, d.Proxied q s → proxyId q s ≠ n.id) :
    ∃ m, p.table.find? n.id = some m ∧ (Blueprint.ofDiagram options d).lower n = .ok m := by
  obtain ⟨m', hm', hl'⟩ := exists_lowered_of_compile hc hn
  obtain ⟨m, hfind⟩ := NodeTable.exists_find?_ofList hm'
  rw [(Blueprint.lowers_of_lower hl').id] at hfind
  obtain ⟨hm, hmid⟩ := NodeTable.of_find?_ofList hfind
  rcases mem_of_compile hd hc hm with ⟨n', hn', hl⟩ | ⟨n', -, q, hq, rfl⟩
  · have hids : n'.id = n.id := (Blueprint.lowers_of_lower hl).id.symm.trans hmid
    obtain rfl := List.inj_on_of_nodup_map hd hn' hn hids
    exact ⟨m, hfind, hl⟩
  · exact absurd hmid (hid q n'.id hq)

/-- Both the entry and the exit of an edge are nodes of the definition. -/
theorem exists_entry_and_exit (hd : (d.nodes.map (·.id)).Nodup)
    (hc : d.compile options name = .ok p) {a b : String} (hab : d.HasEdge a b) :
    (∃ t ∈ p.nodes, t.id = d.entryId a b) ∧ ∃ t ∈ p.nodes, t.id = d.exitId a b := by
  obtain ⟨n, hn, rfl⟩ := hab.2.2
  unfold entryId exitId
  split
  · rename_i hbridge
    have hproxy := exists_proxy_of_compile hd hc hn ⟨hab, hbridge⟩
    exact ⟨hproxy, hproxy⟩
  · exact ⟨exists_node_of_compile hc hab.2.1, exists_node_of_compile hc hab.2.2⟩

/-- Every id that a compiled node names is the id of a compiled node. -/
theorem exists_node_of_link (hd : (d.nodes.map (·.id)).Nodup)
    (hc : d.compile options name = .ok p) {m : ProcessNode} (hm : m ∈ p.nodes) {id : String}
    (hid : id ∈ m.predecessorIds ∨ id ∈ m.targets) : ∃ t ∈ p.nodes, t.id = id := by
  rcases mem_of_compile hd hc hm with ⟨n, hn, hl⟩ | ⟨n, hn, q, hq, rfl⟩
  · have hlow := Blueprint.lowers_of_lower hl
    rcases hid with hid | hid
    · obtain ⟨q, hq, rfl⟩ := (hlow.mem_predecessorIds_iff hd hn).mp hid
      exact (exists_entry_and_exit hd hc hq).1
    · by_cases hg : m.type = .gateway
      · rw [hlow.targets_eq hd hn hg] at hid
        obtain ⟨s, hs, rfl⟩ := List.mem_map.mp hid
        exact (exists_entry_and_exit hd hc (Adjacency.mem_successors_iff.mp hs)).2
      · rw [hlow.targets_eq_nil hg] at hid
        cases hid
  · -- a proxy names the beginning of its edge and nothing else
    rcases hid with hid | hid
    · obtain rfl := List.mem_singleton.mp hid
      exact exists_node_of_compile hc hq.1.2.1
    · cases hid

/-! ## Both directions agree -/

namespace Unambiguous

variable (hd : d.Unambiguous)

include hd

/-- The exit of an edge is the id of a drawn node only if the edge needs no proxy. -/
theorem exitId_eq_iff {n : DiagramNode} (hn : n ∈ d.nodes) (a s : String) :
    d.exitId a s = n.id ↔ s = n.id ∧ d.bridges a n.id = false := by
  unfold exitId
  constructor
  · intro h
    split at h
    · exact absurd h.symm (hd.ne_proxyId hn a s)
    · rename_i hbridge
      subst h
      exact ⟨rfl, Bool.eq_false_iff.mpr hbridge⟩
  · rintro ⟨rfl, h⟩
    rw [h]
    rfl

/-- So is the entry of an edge. -/
theorem entryId_eq_iff {n : DiagramNode} (hn : n ∈ d.nodes) (q s : String) :
    d.entryId q s = n.id ↔ q = n.id ∧ d.bridges n.id s = false := by
  unfold entryId
  constructor
  · intro h
    split at h
    · exact absurd h.symm (hd.ne_proxyId hn q s)
    · rename_i hbridge
      subst h
      exact ⟨rfl, Bool.eq_false_iff.mpr hbridge⟩
  · rintro ⟨rfl, h⟩
    rw [h]
    rfl

/-- The exit of an edge is a proxy only if it is the proxy of this edge. -/
theorem exitId_eq_proxyId_iff {a s q t : String} (has : d.HasEdge a s) (hqt : d.Proxied q t) :
    d.exitId a s = proxyId q t ↔ a = q ∧ s = t := by
  unfold exitId
  constructor
  · intro h
    split at h
    · rename_i hbridge
      exact hd.proxyId_inj _ _ _ _ ⟨has, hbridge⟩ hqt h
    · obtain ⟨n, hn, rfl⟩ := has.2.2
      exact absurd h (hd.ne_proxyId hn q t)
  · rintro ⟨rfl, rfl⟩
    exact if_pos hqt.2

/-- Different edges of one node have different exits. -/
theorem exitId_inj {a s s' : String} (hs : d.HasEdge a s) (hs' : d.HasEdge a s')
    (h : d.exitId a s = d.exitId a s') : s = s' := by
  by_cases hbridge : d.bridges a s' = true
  · have hexit : d.exitId a s' = proxyId a s' := if_pos hbridge
    rw [hexit] at h
    exact ((hd.exitId_eq_proxyId_iff hs ⟨hs', hbridge⟩).mp h).2
  · obtain ⟨n, hn, rfl⟩ := hs'.2.2
    have hexit : d.exitId a n.id = n.id := if_neg hbridge
    rw [hexit] at h
    exact ((hd.exitId_eq_iff hn a s).mp h).1

variable (hc : d.compile options name = .ok p)

include hc

/-- The table has the lowered node under every drawn id. -/
theorem exists_lowers {n : DiagramNode} (hn : n ∈ d.nodes) :
    ∃ m, p.table.find? n.id = some m ∧ (Blueprint.ofDiagram options d).Lowers n m := by
  obtain ⟨m, hfind, hl⟩ := exists_find?_lowered hd.distinct hc hn fun q s _ =>
    (hd.ne_proxyId hn q s).symm
  exact ⟨m, hfind, Blueprint.lowers_of_lower hl⟩

/-- A compiled gateway is a lowered node: proxies are approval steps. -/
theorem exists_drawn_of_gateway {g : ProcessNode} (hg : g ∈ p.nodes) (htype : g.type = .gateway) :
    ∃ n ∈ d.nodes, (Blueprint.ofDiagram options d).Lowers n g := by
  rcases (hd.mem_nodes_iff hc).mp hg with ⟨n, hn, hl⟩ | ⟨n, -, q, -, rfl⟩
  · exact ⟨n, hn, Blueprint.lowers_of_lower hl⟩
  · cases htype

/-- No target of a gateway is listed twice. -/
theorem nodup_targets {g : ProcessNode} (hg : g ∈ p.nodes) (htype : g.type = .gateway) :
    g.targets.Nodup := by
  obtain ⟨n, hn, hlow⟩ := hd.exists_drawn_of_gateway hc hg htype
  rw [hlow.targets_eq hd.distinct hn htype]
  exact List.Nodup.map_on (fun s hs s' hs' h => hd.exitId_inj
    (Adjacency.mem_successors_iff.mp hs) (Adjacency.mem_successors_iff.mp hs') h)
    (Adjacency.nodup_successors d n.id)

/-- **A gateway routes to a node iff the node lists it.** -/
theorem mem_targets_iff {g t : ProcessNode} (hg : g ∈ p.nodes) (htype : g.type = .gateway)
    (ht : t ∈ p.nodes) : t.id ∈ g.targets ↔ g.id ∈ t.predecessorIds := by
  obtain ⟨n, hn, hlow⟩ := hd.exists_drawn_of_gateway hc hg htype
  rw [hlow.targets_eq hd.distinct hn htype, List.mem_map]
  simp only [Adjacency.mem_successors_iff]
  rcases (hd.mem_nodes_iff hc).mp ht with ⟨n', hn', hl⟩ | ⟨n', hn', q, hq, rfl⟩
  · -- between drawn nodes both say that there is an edge without a proxy
    have hlow' := Blueprint.lowers_of_lower hl
    rw [hlow'.mem_predecessorIds_iff hd.distinct hn', hlow.id, hlow'.id]
    simp only [hd.exitId_eq_iff hn', hd.entryId_eq_iff hn]
    constructor
    · rintro ⟨s, hs, rfl, hbridge⟩
      exact ⟨n.id, hs, rfl, hbridge⟩
    · rintro ⟨q, hq, rfl, hbridge⟩
      exact ⟨n'.id, hq, rfl, hbridge⟩
  · -- at a proxy both say that the proxy is on an edge from the gateway
    show (∃ s, d.HasEdge n.id s ∧ d.exitId n.id s = proxyId q n'.id) ↔ g.id ∈ [q]
    rw [List.mem_singleton, hlow.id]
    constructor
    · rintro ⟨s, hs, hexit⟩
      exact ((hd.exitId_eq_proxyId_iff hs hq).mp hexit).1
    · rintro rfl
      exact ⟨n'.id, hq.1, (hd.exitId_eq_proxyId_iff hq.1 hq).mpr ⟨rfl, rfl⟩⟩

/-- The branches that the dispatcher sees at a gateway are those that the engine routes to. -/
theorem branchHeads_perm_targets {g : ProcessNode} (hg : g ∈ p.nodes) (htype : g.type = .gateway)
    (tasks : List Task) : ((Snapshot.ofParts p.table tasks).branchHeads g.id).Perm g.targets := by
  have hheads : ((Snapshot.ofParts p.table tasks).branchHeads g.id).Nodup :=
    (Snapshot.branchHeads_pairwise p.nodes tasks g.id).imp fun hlt => ne_of_lt hlt
  refine (List.perm_ext_iff_of_nodup hheads (hd.nodup_targets hc hg htype)).mpr fun x => ?_
  rw [show p.table = .ofList p.nodes from rfl, Snapshot.mem_branchHeads_iff (hd.nodup_ids hc)]
  constructor
  · rintro ⟨t, ht, rfl, hlists⟩
    exact (hd.mem_targets_iff hc hg htype ht).mpr hlists
  · intro hx
    obtain ⟨t, ht, rfl⟩ := exists_node_of_link hd.distinct hc hg (.inr hx)
    exact ⟨t, ht, rfl, (hd.mem_targets_iff hc hg htype ht).mp hx⟩

end Unambiguous

/-- **Forward and backward links of a compiled definition agree.** Every id that a compiled node
names is the id of a compiled node. If moreover no two things share an id, then a gateway lists no
target twice, it routes to a node iff the node lists it, and the branches that the dispatcher sees
are just its targets. -/
theorem links_agree (hd : (d.nodes.map (·.id)).Nodup) (hc : d.compile options name = .ok p) :
    (∀ m ∈ p.nodes, ∀ id, id ∈ m.predecessorIds ∨ id ∈ m.targets → ∃ t ∈ p.nodes, t.id = id) ∧
      (d.Unambiguous → ∀ g ∈ p.nodes, g.type = .gateway →
        g.targets.Nodup ∧ (∀ t ∈ p.nodes, t.id ∈ g.targets ↔ g.id ∈ t.predecessorIds) ∧
          ∀ tasks, ((Snapshot.ofParts p.table tasks).branchHeads g.id).Perm g.targets) :=
  ⟨fun _ hm _ hid => exists_node_of_link hd hc hm hid, fun hu _ hg htype =>
    ⟨hu.nodup_targets hc hg htype, fun _ ht => hu.mem_targets_iff hc hg htype ht,
      fun tasks => hu.branchHeads_perm_targets hc hg htype tasks⟩⟩

/-- A choice in front of a parallel gateway in front of another one, with an edge from a gateway to
itself, an edge drawn twice, a way back, and an edge to nowhere. -/
def chained : Diagram where
  nodes := [⟨"S", .start, .start "begin"⟩, ⟨"C", .condition, .condition ""⟩,
    ⟨"P", .parallel, .gateway ""⟩, ⟨"U", .user, .user { approverIds := ["ann"] }⟩,
    ⟨"A", .automation, .automation {}⟩, ⟨"Q", .parallel, .gateway "join"⟩,
    ⟨"E", .finish, .finish ""⟩]
  edges := [⟨"e1", "S", "C", {}⟩, ⟨"e2", "C", "P", { expression := "x > 1" }⟩, ⟨"e3", "C", "E", {}⟩,
    ⟨"e4", "P", "U", {}⟩, ⟨"e5", "P", "A", {}⟩, ⟨"e6", "P", "Q", {}⟩, ⟨"e7", "U", "Q", {}⟩,
    ⟨"e8", "U", "Q", {}⟩, ⟨"e9", "A", "Q", {}⟩, ⟨"e10", "Q", "Q", {}⟩, ⟨"e11", "Q", "C", {}⟩,
    ⟨"e12", "P", "nowhere", {}⟩]

theorem links_agree_chained :
    ∃ p, chained.compile {} "chained" = .ok p ∧
      (∀ m ∈ p.nodes, ∀ id, id ∈ m.predecessorIds ∨ id ∈ m.targets → ∃ t ∈ p.nodes, t.id = id) ∧
      ∀ g ∈ p.nodes, g.type = .gateway →
        g.targets.Nodup ∧ (∀ t ∈ p.nodes, t.id ∈ g.targets ↔ g.id ∈ t.predecessorIds) ∧
          ∀ tasks, ((Snapshot.ofParts p.table tasks).branchHeads g.id).Perm g.targets := by
  have hd : chained.Unambiguous := by decide
  obtain ⟨p, hp⟩ : ∃ p, chained.compile {} "chained" = .ok p := ⟨_, rfl⟩
  obtain ⟨hlinks, hboth⟩ := links_agree hd.distinct hp
  exact ⟨p, hp, hlinks, hboth hd⟩

end Diagram

end ApprovalFlow
