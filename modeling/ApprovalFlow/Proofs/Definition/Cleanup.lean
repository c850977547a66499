import ApprovalFlow.Proofs.Definition.Subscriptions
import ApprovalFlow.Proofs.Dispatch.Commands

/-!
# Who closes the branches beside its own

A rejected task closes the branches beside its own only if its node subscribes to a cleanup event.
The compilation decides that on the diagram: two nodes above there must be a condition and a
concurrent gateway, one behind the other. The dispatcher looks for the gateway among the compiled
nodes. It finds one, since no edge into an approval step or a condition needs a proxy.

- `Blueprint.cleanup_of_subscribes`: only approval steps of people subscribe to them.
- `Diagram.Unambiguous.exists_parent_of_hasEdge`: above a node that is no concurrent gateway the
  dispatcher finds what is drawn.
- `Diagram.Unambiguous.exists_rejectedBranch`: **a node that subscribes to a cleanup event has a
  gateway above it whose branches the event is about.**
-/

namespace ApprovalFlow

namespace EventName

/-- A cleanup event does not tell of the course of a node. -/
theorem not_isLifecycle_of_isCleanup {e : EventName} (he : e.isCleanup = true) :
    e.isLifecycle ≠ true := by
  cases e with
  | concurrentRejectCleanup | gatewayConditionReject => exact Bool.false_ne_true
  | _ => cases he

/-- Nor is it a completion event. -/
theorem joinPolicy?_of_isCleanup {e : EventName} (he : e.isCleanup = true) :
    e.joinPolicy? = none := by
  cases e with
  | concurrentRejectCleanup | gatewayConditionReject => rfl
  | _ => cases he

end EventName

/-! ## Subscriptions -/

/-- A proxy subscribes to no cleanup event. -/
theorem not_subscribesTo_proxyNode {e : EventName} (he : e.isCleanup = true) (source target : String)
    (kind : NodeKind) : (proxyNode source target kind).subscribesTo e ≠ true := by
  intro hsub
  rcases cases_of_subscribes_proxyNode hsub with hmem | hlifecycle
  · obtain ⟨policy, hpolicy, -⟩ := policy_of_mem_completionEvents hmem
    rw [EventName.joinPolicy?_of_isCleanup he] at hpolicy
    cases hpolicy
  · exact EventName.not_isLifecycle_of_isCleanup he hlifecycle

namespace Blueprint

variable {b : Blueprint} {n : DiagramNode} {m : ProcessNode} {e : EventName}

/-- **Only approval steps of people subscribe to a cleanup event**, and only where the diagram asks
for it. -/
theorem cleanup_of_subscribes (h : b.lower n = .ok m) (he : e.isCleanup = true)
    (hsub : m.subscribesTo e = true) : n.kind = .user ∧ e.text ∈ b.rejectCleanupEvents n.id := by
  rcases cases_of_subscribes h hsub with hmem | hcleanup | hlifecycle
  · -- completion events are no cleanup events
    rcases cases_of_mem_gatewayCompletionEvents hmem with ⟨rfl, -⟩ | ⟨rfl, -⟩ <;> cases he
  · exact hcleanup
  · exact absurd hlifecycle (EventName.not_isLifecycle_of_isCleanup he)

/-- What the diagram asks for: a concurrent gateway behind a condition, or a condition behind a
concurrent gateway. -/
theorem ancestors_of_mem_rejectCleanupEvents {id : String}
    (h : e.text ∈ b.rejectCleanupEvents id) :
    (e = .concurrentRejectCleanup ∧
        b.hasAncestors id NodeKind.isConcurrent (· == .condition) = true) ∨
      (e = .gatewayConditionReject ∧
        b.hasAncestors id (· == .condition) NodeKind.isConcurrent = true) := by
  rcases List.mem_append.mp h with h | h
  · split at h
    · rename_i hancestors
      exact .inl ⟨EventName.text_injective (List.mem_singleton.mp h), hancestors⟩
    · cases h
  · split at h
    · rename_i hancestors
      exact .inr ⟨EventName.text_injective (List.mem_singleton.mp h), hancestors⟩
    · cases h

/-- Such nodes are drawn above the node, one behind the other. -/
theorem exists_ancestors {options : CompilerOptions} {d : Diagram}
    (hd : (d.nodes.map (·.id)).Nodup) {id : String} {parent grandparent : NodeKind → Bool}
    (h : (ofDiagram options d).hasAncestors id parent grandparent = true) :
    ∃ a ∈ d.nodes, d.HasEdge a.id id ∧ parent a.kind = true ∧
      ∃ g ∈ d.nodes, d.HasEdge g.id a.id ∧ grandparent g.kind = true := by
  -- the adjacency knows the kind of every predecessor
  have hdrawn : ∀ {x y : String} {test : NodeKind → Bool},
      x ∈ (Adjacency.ofDiagram d).predecessors y →
      ((Adjacency.ofDiagram d).kind? x).any test = true →
      ∃ n ∈ d.nodes, n.id = x ∧ d.HasEdge n.id y ∧ test n.kind = true := by
    intro x y test hx htest
    have hedge := Adjacency.mem_predecessors_iff.mp hx
    obtain ⟨n, hn, rfl⟩ := hedge.2.1
    rw [Adjacency.kind?_ofDiagram, Diagram.kindOf?_eq hd hn] at htest
    exact ⟨n, hn, rfl, hedge, htest⟩
  obtain ⟨x, hx, hboth⟩ := List.any_eq_true.mp h
  obtain ⟨hparent, habove⟩ := Bool.and_eq_true_iff.mp hboth
  obtain ⟨y, hy, hgrandparent⟩ := List.any_eq_true.mp habove
  obtain ⟨a, ha, rfl, hedge, hparent⟩ := hdrawn hx hparent
  obtain ⟨g, hg, -, hedge', hgrandparent⟩ := hdrawn hy hgrandparent
  exact ⟨a, ha, hedge, hparent, g, hg, hedge', hgrandparent⟩

/-- A lowered node joins concurrently iff the drawn one is a concurrent gateway. -/
theorem Lowers.isConcurrentJoin_eq (hm : b.Lowers n m) :
    m.isConcurrentJoin = n.kind.isConcurrent := by
  unfold ProcessNode.isConcurrentJoin
  rw [hm.type, hm.joinPolicy]
  cases n.kind <;> rfl

end Blueprint

/-! ## Finding the gateway -/

namespace Diagram.Unambiguous

variable {options : CompilerOptions} {name : String} {d : Diagram} {p : ProcessDefinition}
  (hd : d.Unambiguous) (hc : d.compile options name = .ok p)

include hd hc

/-- Above a node that is no concurrent gateway the dispatcher finds all that is drawn there. -/
theorem exists_parent_of_hasEdge {n g : DiagramNode} (hn : n ∈ d.nodes) (hg : g ∈ d.nodes)
    (hedge : d.HasEdge g.id n.id) (hplain : n.kind.isConcurrent = false) (tasks : List Task) :
    ∃ c ∈ (Snapshot.ofParts p.table tasks).parents n.id,
      (Blueprint.ofDiagram options d).Lowers g c := by
  obtain ⟨m, hm, hlower⟩ := exists_lowered_of_compile hc hn
  obtain ⟨c, hcm, hlower'⟩ := exists_lowered_of_compile hc hg
  have hlow := Blueprint.lowers_of_lower hlower
  have hlow' := Blueprint.lowers_of_lower hlower'
  have hbridge : d.bridges g.id n.id = false := bridges_eq_false hd.distinct hn hplain g.id
  have hlists : c.id ∈ m.predecessorIds := by
    rw [hlow'.id]
    exact hlow.mem_predecessorIds_of_hasEdge hd.distinct hn hedge hbridge
  exact ⟨c, (Snapshot.mem_parents_iff (hd.nodup_ids hc)).mpr ⟨hcm, m, hm, hlow.id, hlists⟩, hlow'⟩

/-- So it finds a concurrent gateway there if one is drawn. -/
theorem isSome_concurrentParent? {n g : DiagramNode} (hn : n ∈ d.nodes) (hg : g ∈ d.nodes)
    (hedge : d.HasEdge g.id n.id) (hplain : n.kind.isConcurrent = false)
    (hgate : g.kind.isConcurrent = true) (tasks : List Task) :
    ((Snapshot.ofParts p.table tasks).concurrentParent? n.id).isSome := by
  obtain ⟨c, hparent, hlow⟩ := hd.exists_parent_of_hasEdge hc hn hg hedge hplain tasks
  unfold Snapshot.concurrentParent?
  rw [Option.isSome_map, List.find?_isSome]
  exact ⟨c, hparent, hlow.isConcurrentJoin_eq.trans hgate⟩

/-- **A node that subscribes to a cleanup event has a gateway above it whose branches the event is
about.** -/
theorem exists_rejectedBranch {u : ProcessNode} (hu : u ∈ p.nodes) {e : EventName}
    (he : e.isCleanup = true) (hsub : u.subscribesTo e = true) (tasks : List Task) :
    ∃ gateway own, (Snapshot.ofParts p.table tasks).rejectedBranch? e u.id = some (gateway, own) := by
  rcases (hd.mem_nodes_iff hc).mp hu with ⟨n, hn, hlower⟩ | ⟨n, -, q, -, rfl⟩
  · obtain ⟨hkind, hevent⟩ := Blueprint.cleanup_of_subscribes hlower he hsub
    have hplain : n.kind.isConcurrent = false := by
      rw [hkind]
      rfl
    rw [(Blueprint.lowers_of_lower hlower).id]
    rcases Blueprint.ancestors_of_mem_rejectCleanupEvents hevent with ⟨rfl, h⟩ | ⟨rfl, h⟩
    · -- the gateway stands right above the node
      obtain ⟨g, hg, hedge, hgate, -⟩ := Blueprint.exists_ancestors hd.distinct h
      obtain ⟨gateway, hgateway⟩ := Option.isSome_iff_exists.mp
        (hd.isSome_concurrentParent? hc hn hg hedge hplain hgate tasks)
      refine ⟨gateway, n.id, ?_⟩
      show ((Snapshot.ofParts p.table tasks).concurrentParent? n.id).map _ = _
      rw [hgateway]
      rfl
    · -- it stands above a condition
      obtain ⟨a, ha, hedge, hcondition, g, hg, hedge', hgate⟩ :=
        Blueprint.exists_ancestors hd.distinct h
      obtain ⟨c, hparent, hlow⟩ := hd.exists_parent_of_hasEdge hc hn ha hedge hplain tasks
      have hkind : a.kind = .condition := beq_iff_eq.mp hcondition
      have hplain : a.kind.isConcurrent = false := by
        rw [hkind]
        rfl
      have habove := hd.isSome_concurrentParent? hc ha hg hedge' hplain hgate tasks
      have hsome : ((Snapshot.ofParts p.table tasks).rejectedBranch? .gatewayConditionReject
          n.id).isSome := by
        refine List.findSome?_isSome_iff.mpr ⟨c, List.mem_filter.mpr ⟨hparent, ?_⟩, ?_⟩
        · rw [hlow.isConcurrentJoin_eq, hplain, hlow.type, hkind]
          rfl
        · rw [Option.isSome_map, hlow.id]
          exact habove
      obtain ⟨⟨gateway, own⟩, hbranch⟩ := Option.isSome_iff_exists.mp hsome
      exact ⟨gateway, own, hbranch⟩
  · exact absurd hsub (not_subscribesTo_proxyNode he q n.id n.kind)

end Diagram.Unambiguous

end ApprovalFlow
