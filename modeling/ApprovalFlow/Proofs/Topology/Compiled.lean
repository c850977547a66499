import ApprovalFlow.Proofs.Definition.Compile
import ApprovalFlow.Proofs.Definition.Links
import ApprovalFlow.Proofs.Topology.Links

/-!
# The topology of a compiled definition

A diagram goes through three computations of neighbours before anybody asks for a path: the
adjacency of the diagram, the links of the compiled nodes with proxies put in, and the topology that
takes the proxies out again. Put together they give back what was drawn.

- `Diagram.Unambiguous.isProxy_iff`: the proxies of a compiled definition are the ones put in.
- `Diagram.Unambiguous.mem_sources_iff`: a lowered node comes from the beginnings of the edges to
  the drawn one.
- `Diagram.strip_compile`: **the topology of a compiled definition has just the edges of the
  diagram between drawn nodes.**
- `Diagram.dangling_source_dropped`: the beginning of an edge that is no drawn node is before
  nothing.
-/

namespace ApprovalFlow

/-- The bridges that the compilation puts in are proxies. -/
theorem isProxy_proxyNode (p s : String) (k : NodeKind) : (proxyNode p s k).isProxy = true := by
  unfold ProcessNode.isProxy
  rw [Bool.and_eq_true]
  exact ⟨hasProxyMark_proxyId p s, beq_self_eq_true [systemApprover]⟩

namespace Diagram

variable {options : CompilerOptions} {name : String} {d : Diagram} {p : ProcessDefinition}

namespace Unambiguous

variable (hd : d.Unambiguous) (hc : d.compile options name = .ok p)

include hd hc

/-- A node is a proxy iff it is called like one. -/
theorem isProxy_iff {m : ProcessNode} (hm : m ∈ p.nodes) : m.isProxy = hasProxyMark m.id := by
  rcases (hd.mem_nodes_iff hc).mp hm with ⟨n, hn, hl⟩ | ⟨n, hn, q, -, rfl⟩
  · have hmark : hasProxyMark m.id = false := by
      rw [(Blueprint.lowers_of_lower hl).id]
      exact hd.unmarked n hn
    unfold ProcessNode.isProxy
    rw [hmark, Bool.false_and]
  · rw [isProxy_proxyNode]
    exact (hasProxyMark_proxyId q n.id).symm

/-- The table has a node under every drawn id, and it is no proxy. -/
theorem find?_drawn {n : DiagramNode} (hn : n ∈ d.nodes) :
    ∃ m, p.table.find? n.id = some m ∧ m.isProxy = false := by
  obtain ⟨m, hfind, hlow⟩ := hd.exists_lowers hc hn
  refine ⟨m, hfind, ?_⟩
  rw [hd.isProxy_iff hc (NodeTable.of_find?_ofList hfind).1, hlow.id]
  exact hd.unmarked n hn

/-- What stands for the beginning of an edge at its end comes from the beginning of the edge. -/
theorem businessSources_entryId {q : String} {n : DiagramNode} (hn : n ∈ d.nodes)
    (hq : d.HasEdge q n.id) :
    Topology.businessSources p.table (d.entryId q n.id) = [q] := by
  obtain ⟨n', hn', rfl⟩ := hq.2.1
  obtain ⟨m, hm, hbusiness⟩ := hd.find?_drawn hc hn'
  unfold entryId
  split
  · rename_i hbridge
    -- the way leads through the one proxy on the edge
    have hproxy : proxyNode n'.id n.id n.kind ∈ p.nodes :=
      (hd.mem_nodes_iff hc).mpr (.inr ⟨n, hn, n'.id, ⟨hq, hbridge⟩, rfl⟩)
    have hfind : p.table.find? (proxyId n'.id n.id) = some (proxyNode n'.id n.id n.kind) :=
      (NodeTable.find?_ofList_iff (hd.nodup_ids hc)).mpr ⟨hproxy, rfl⟩
    exact Topology.businessSources_of_bridge hfind (isProxy_proxyNode _ _ _) rfl hm hbusiness
  · exact Topology.businessSources_of_business hm hbusiness

/-- **A lowered node comes from the beginnings of the edges to the drawn one.** -/
theorem mem_sources_iff {m : ProcessNode} {n : DiagramNode} (hn : n ∈ d.nodes)
    (hlow : (Blueprint.ofDiagram options d).Lowers n m) {a : String} :
    a ∈ Topology.sources p.table m ↔ d.HasEdge a n.id := by
  unfold Topology.sources
  rw [List.mem_flatMap]
  constructor
  · rintro ⟨x, hx, ha⟩
    obtain ⟨q, hq, rfl⟩ := (hlow.mem_predecessorIds_iff hd.distinct hn).mp hx
    rw [hd.businessSources_entryId hc hn hq, List.mem_singleton] at ha
    exact ha ▸ hq
  · intro ha
    refine ⟨d.entryId a n.id, (hlow.mem_predecessorIds_iff hd.distinct hn).mpr ⟨a, ha, rfl⟩, ?_⟩
    rw [hd.businessSources_entryId hc hn ha]
    exact List.mem_singleton_self a

/-- The nodes after an id are the ends of its edges, in the order of the diagram. -/
theorem next_compile (a : String) :
    (Topology.ofNodes p.nodes).next a = (d.nodes.map (·.id)).filter (d.HasEdge a ·) := by
  have hchoice : p.nodes.filter (fun m =>
      !m.isProxy && (Topology.sources (.ofList p.nodes) m).contains a) =
        (p.nodes.filter fun m => !hasProxyMark m.id).filter fun m => d.HasEdge a m.id := by
    rw [List.filter_filter]
    refine List.filter_congr fun m hm => ?_
    rw [hd.isProxy_iff hc hm]
    rcases (hd.mem_nodes_iff hc).mp hm with ⟨n, hn, hl⟩ | ⟨n, hn, q, -, rfl⟩
    · have hlow := Blueprint.lowers_of_lower hl
      rw [Bool.and_comm, Bool.eq_iff_iff, Bool.and_eq_true, Bool.and_eq_true, decide_eq_true_iff,
        List.contains_iff_mem, hlow.id]
      exact and_congr_left fun _ => hd.mem_sources_iff hc hn hlow
    · rw [show hasProxyMark (proxyNode q n.id n.kind).id = true from hasProxyMark_proxyId q n.id]
      simp
  rw [Topology.next_ofNodes (hd.nodup_ids hc), hchoice, ← hd.drawn_in_order hc, List.filter_map]
  rfl

/-- The nodes before an id are the beginnings of the edges to it. -/
theorem mem_prev_compile_iff {a b : String} :
    a ∈ (Topology.ofNodes p.nodes).prev b ↔ d.HasEdge a b := by
  rw [Topology.mem_prev_ofNodes_iff, hd.next_compile hc, List.mem_filter, decide_eq_true_iff]
  refine ⟨fun h => h.2, fun h => ⟨?_, h⟩⟩
  obtain ⟨n, hn, hid⟩ := h.2.2
  exact List.mem_map.mpr ⟨n, hn, hid⟩

omit hc in
/-- No edge begins or ends at a proxy. -/
theorem not_hasEdge_proxyId (q s x : String) :
    ¬ d.HasEdge (proxyId q s) x ∧ ¬ d.HasEdge x (proxyId q s) := by
  constructor
  · rintro ⟨-, ⟨n, hn, hid⟩, -⟩
    exact hd.ne_proxyId hn q s hid
  · rintro ⟨-, -, n, hn, hid⟩
    exact hd.ne_proxyId hn q s hid

end Unambiguous

/-- **Compiling a diagram and taking the proxies out gives back what was drawn.** The nodes after an
id are the ends of its edges between drawn nodes, each once, in the order of the diagram. The nodes
before an id are the beginnings of those edges to it, each once, in ascending order. A proxy has
nothing before or after it. -/
theorem strip_compile (hd : d.Unambiguous) (hc : d.compile options name = .ok p) :
    (∀ a, (Topology.ofNodes p.nodes).next a = (d.nodes.map (·.id)).filter (d.HasEdge a ·) ∧
        ((Topology.ofNodes p.nodes).next a).Nodup) ∧
      (∀ b, ((Topology.ofNodes p.nodes).prev b).Pairwise (· < ·) ∧
        ∀ a, a ∈ (Topology.ofNodes p.nodes).prev b ↔ d.HasEdge a b) ∧
      ∀ q s, (Topology.ofNodes p.nodes).next (proxyId q s) = [] ∧
        (Topology.ofNodes p.nodes).prev (proxyId q s) = [] := by
  refine ⟨fun a => ⟨hd.next_compile hc a, ?_⟩,
    fun b => ⟨Topology.prev_ofNodes_pairwise p.nodes b, fun a => hd.mem_prev_compile_iff hc⟩,
    fun q s => ⟨?_, ?_⟩⟩
  · rw [hd.next_compile hc]
    exact hd.distinct.filter _
  · rw [hd.next_compile hc]
    exact List.filter_eq_nil_iff.mpr fun x _ hx =>
      (hd.not_hasEdge_proxyId q s x).1 (of_decide_eq_true hx)
  · exact List.eq_nil_iff_forall_not_mem.mpr fun x hx =>
      (hd.not_hasEdge_proxyId q s x).2 ((hd.mem_prev_compile_iff hc).mp hx)

theorem strip_compile_chained :
    ∃ p, chained.compile {} "chained" = .ok p ∧
      (∀ a, (Topology.ofNodes p.nodes).next a =
          (chained.nodes.map (·.id)).filter (chained.HasEdge a ·) ∧
        ((Topology.ofNodes p.nodes).next a).Nodup) ∧
      (∀ b, ((Topology.ofNodes p.nodes).prev b).Pairwise (· < ·) ∧
        ∀ a, a ∈ (Topology.ofNodes p.nodes).prev b ↔ chained.HasEdge a b) ∧
      ∀ q s, (Topology.ofNodes p.nodes).next (proxyId q s) = [] ∧
        (Topology.ofNodes p.nodes).prev (proxyId q s) = [] := by
  have hd : chained.Unambiguous := by decide
  obtain ⟨p, hp⟩ : ∃ p, chained.compile {} "chained" = .ok p := ⟨_, rfl⟩
  exact ⟨p, hp, strip_compile hd hp⟩

/-- A node with an edge to it from nowhere. -/
def dangling : Diagram where
  nodes := [⟨"E", .finish, .finish ""⟩]
  edges := [⟨"e1", "ghost", "E", {}⟩]

/-- The ends of all edges would not do: one that is no drawn node is before nothing. -/
theorem dangling_source_dropped :
    ¬ ∀ (d : Diagram) (options : CompilerOptions) (name : String) (p : ProcessDefinition),
      d.Unambiguous → d.compile options name = .ok p → ∀ n ∈ d.nodes, ∀ a,
        (a ∈ (Topology.ofNodes p.nodes).prev n.id ↔
          ∃ e ∈ d.edges, e.source = a ∧ e.target = n.id) := by
  intro h
  have hd : dangling.Unambiguous := by decide
  obtain ⟨p, hp⟩ : ∃ p, dangling.compile {} "dangling" = .ok p := ⟨_, rfl⟩
  have hghost : "ghost" ∈ (Topology.ofNodes p.nodes).prev "E" :=
    (h dangling {} "dangling" p hd hp _ List.mem_cons_self "ghost").mpr
      ⟨_, List.mem_cons_self, rfl, rfl⟩
  obtain ⟨-, ⟨n, hn, hid⟩, -⟩ := (hd.mem_prev_compile_iff hp).mp hghost
  obtain rfl := List.mem_singleton.mp hn
  exact absurd hid (by decide)

end Diagram

end ApprovalFlow
