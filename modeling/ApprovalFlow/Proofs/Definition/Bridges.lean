import ApprovalFlow.Definition.Compile
import ApprovalFlow.Proofs.Diagram.Adjacency

/-!
# Links of a compiled node

Lowering looks at a node's neighbours three times: for its predecessors, for the targets of a
parallel or inclusion gateway, and, by a scan of the edges of its own, for the branches of a
condition. Each time a neighbour is replaced by a proxy where the edge needs one. Here all three are
brought into one form, said in terms of the diagram alone.

- `Diagram.bridges`: does an edge between two ids need a proxy? `Diagram.Proxied` are the edges
  that do.
- `Diagram.entryId`, `Diagram.exitId`: what stands for the beginning of an edge at its end, and for
  its end at its beginning.
- `Diagram.Unambiguous`: the diagrams in which no two things share an id once proxies are added.
- `Blueprint.predecessorIds_eq`, `Blueprint.targets_lower`: **the links of a compiled node are the
  neighbours of the drawn one, each by its entry or exit.**
- `Diagram.branchEdges`, `Blueprint.successors_eq`, `Blueprint.branches_eq`: the adjacency and the
  scan for branches take the same edges, whether or not ids repeat.
- `Blueprint.lowers_of_lower`: all that the other modules need to know of `Blueprint.lower`.
-/

namespace ApprovalFlow

namespace Diagram

/-! ## Edges that need a proxy -/

/-- Would an edge between the nodes of two ids need a proxy? -/
def bridges (d : Diagram) (p s : String) : Bool :=
  match d.kindOf? p, d.kindOf? s with
  | some j, some k => needsProxy j k
  | _, _ => false

/-- Is there an edge between two nodes that needs a proxy? -/
def Proxied (d : Diagram) (p s : String) : Prop := d.HasEdge p s ∧ d.bridges p s = true

instance (d : Diagram) (p s : String) : Decidable (d.Proxied p s) :=
  inferInstanceAs (Decidable (_ ∧ _))

/-- What the node at the end of an edge lists for the node at its beginning. -/
def entryId (d : Diagram) (p s : String) : String := if d.bridges p s then proxyId p s else p

/-- What the node at the beginning of an edge lists for the node at its end. -/
def exitId (d : Diagram) (p s : String) : String := if d.bridges p s then proxyId p s else s

/-- The edges of a node that are first to their targets. -/
def branchEdges (d : Diagram) (id : String) : List DiagramEdge :=
  Blueprint.firstPerTarget [] (d.linkingEdges.filter fun e => e.source = id)

/-- The diagrams in which no two things share an id once the proxies are there. -/
structure Unambiguous (d : Diagram) : Prop where
  /-- The ids of nodes differ. -/
  distinct : (d.nodes.map (·.id)).Nodup
  /-- No node is called like a proxy. -/
  unmarked : ∀ n ∈ d.nodes, hasProxyMark n.id = false
  /-- Different edges have different proxies. -/
  proxyId_inj : ∀ p s p' s', d.Proxied p s → d.Proxied p' s' → proxyId p s = proxyId p' s' →
    p = p' ∧ s = s'

/-- Only the edges of a diagram can need proxies, so it is checked by looking at pairs of them. -/
instance (d : Diagram) : Decidable d.Unambiguous :=
  decidable_of_iff ((d.nodes.map (·.id)).Nodup ∧ (∀ n ∈ d.nodes, hasProxyMark n.id = false) ∧
      ∀ e ∈ d.edges, ∀ e' ∈ d.edges, d.Proxied e.source e.target → d.Proxied e'.source e'.target →
        proxyId e.source e.target = proxyId e'.source e'.target →
        e.source = e'.source ∧ e.target = e'.target) <| by
    constructor
    · rintro ⟨hdistinct, hunmarked, hinj⟩
      refine ⟨hdistinct, hunmarked, fun p s p' s' h h' => ?_⟩
      obtain ⟨e, he, rfl, rfl⟩ := h.1.1
      obtain ⟨e', he', rfl, rfl⟩ := h'.1.1
      exact hinj e he e' he' h h'
    · rintro ⟨hdistinct, hunmarked, hinj⟩
      exact ⟨hdistinct, hunmarked, fun e _ e' _ h h' => hinj _ _ _ _ h h'⟩

end Diagram

/-! ## Ids of proxies -/

theorem hasProxyMark_proxyId (p s : String) : hasProxyMark (proxyId p s) = true := by
  unfold hasProxyMark proxyId
  rw [List.isPrefixOf_iff_prefix, String.append_assoc, String.append_assoc, String.toList_append]
  exact List.prefix_append _ _

/-- At one node the proxies for different predecessors have different ids. -/
theorem proxyId_left_inj {p p' s : String} : proxyId p s = proxyId p' s ↔ p = p' := by
  unfold proxyId
  rw [String.append_left_inj, String.append_left_inj, String.append_right_inj]

namespace Diagram

variable {d : Diagram} {n : DiagramNode}

/-- The id of a node differs from that of every proxy. -/
theorem Unambiguous.ne_proxyId (hd : d.Unambiguous) (hn : n ∈ d.nodes) (p s : String) :
    n.id ≠ proxyId p s := by
  intro h
  have := hd.unmarked n hn
  rw [h, hasProxyMark_proxyId] at this
  cases this

theorem bridges_eq (hd : (d.nodes.map (·.id)).Nodup) (hn : n ∈ d.nodes) (p : String) :
    d.bridges p n.id = ((d.kindOf? p).map fun k => needsProxy k n.kind).getD false := by
  unfold bridges
  rw [kindOf?_eq hd hn]
  cases d.kindOf? p <;> rfl

/-- No edge to a node that is no concurrent gateway needs a proxy. -/
theorem bridges_eq_false (hd : (d.nodes.map (·.id)).Nodup) (hn : n ∈ d.nodes)
    (hplain : n.kind.isConcurrent = false) (p : String) : d.bridges p n.id = false := by
  rw [bridges_eq hd hn]
  unfold needsProxy
  rw [hplain]
  cases d.kindOf? p with
  | none => rfl
  | some k => exact Bool.and_false _

end Diagram

/-! ## Neighbours as the engine sees them -/

namespace Blueprint

variable {options : CompilerOptions} {d : Diagram} {n : DiagramNode}

theorem mem_incoming_iff {p : String} {k : NodeKind} :
    (p, k) ∈ (ofDiagram options d).incoming n ↔ d.HasEdge p n.id ∧ d.kindOf? p = some k := by
  unfold incoming ofDiagram
  rw [List.mem_filterMap]
  simp only [Adjacency.kind?_ofDiagram, Option.map_eq_some_iff, Prod.mk.injEq]
  constructor
  · rintro ⟨q, hq, j, hj, rfl, rfl⟩
    exact ⟨Adjacency.mem_predecessors_iff.mp hq, hj⟩
  · rintro ⟨hp, hk⟩
    exact ⟨p, Adjacency.mem_predecessors_iff.mpr hp, k, hk, rfl, rfl⟩

variable (hd : (d.nodes.map (·.id)).Nodup) (hn : n ∈ d.nodes)

include hd hn

/-- **The predecessors of a compiled node are those of the drawn one, each by its entry.** -/
theorem predecessorIds_eq :
    (ofDiagram options d).predecessorIds n =
      ((Adjacency.ofDiagram d).predecessors n.id).map (d.entryId · n.id) := by
  unfold predecessorIds incoming ofDiagram
  rw [List.map_filterMap, ← List.filterMap_eq_map]
  refine List.filterMap_congr fun p hp => ?_
  obtain ⟨-, hnode, -⟩ := Adjacency.mem_predecessors_iff.mp hp
  obtain ⟨k, hk⟩ := Option.isSome_iff_exists.mp (Diagram.isSome_kindOf?.mpr hnode)
  simp only [Adjacency.kind?_ofDiagram, hk, Option.map_some, Function.comp, Diagram.entryId,
    Diagram.bridges_eq hd hn, Option.getD_some]

/-- Where the engine routes to is the exit of the edge. -/
theorem successorId_eq (s : String) :
    (ofDiagram options d).successorId n s = d.exitId n.id s := by
  unfold successorId ofDiagram Diagram.exitId Diagram.bridges
  rw [Adjacency.kind?_ofDiagram, Diagram.kindOf?_eq hd hn]
  cases d.kindOf? s <;> rfl

omit hd hn in
/-- The scan for the branches of a condition meets the targets in the order of the adjacency: both
take an edge iff its target was not met before. -/
theorem map_target_firstPerTarget (edges : List DiagramEdge) (seen acc : List String)
    (h : ∀ x, x ∈ seen ↔ x ∈ acc) :
    acc ++ (firstPerTarget seen edges).map (·.target) =
      (edges.map (·.target)).foldl Adjacency.pushNew acc := by
  induction edges generalizing seen acc with
  | nil => simp [firstPerTarget]
  | cons e rest ih =>
    rw [firstPerTarget, List.map_cons, List.foldl_cons, Adjacency.pushNew]
    have hc : seen.contains e.target = acc.contains e.target := by
      rw [Bool.eq_iff_iff, List.contains_iff_mem, List.contains_iff_mem, h]
    rw [hc]
    split
    · exact ih seen acc h
    · rw [List.map_cons, ← ih (e.target :: seen) (acc ++ [e.target]) fun x => by
        rw [List.mem_cons, List.mem_append, List.mem_singleton, h, or_comm]]
      simp

omit hd hn in
/-- The successors of a node are the ends of the edges that are first to their targets. -/
theorem successors_eq (id : String) :
    (Adjacency.ofDiagram d).successors id = (d.branchEdges id).map (·.target) := by
  rw [Adjacency.successors_ofDiagram]
  exact (map_target_firstPerTarget _ [] [] fun _ => Iff.rfl).symm

omit hd in
/-- A condition has a branch for each of these edges. -/
theorem branches_eq :
    (ofDiagram options d).branches n = (d.branchEdges n.id).map fun e =>
      { expression :=
          if Text.isAllBlank e.properties.expression then options.defaultExpression
          else e.properties.expression
        target := (ofDiagram options d).successorId n e.target } := by
  have hnode : (d.kindOf? n.id).isSome := Diagram.isSome_kindOf?.mpr ⟨n, hn, rfl⟩
  have hedges : (d.edges.filter fun e => e.source == n.id && (d.kindOf? e.target).isSome) =
      d.linkingEdges.filter fun e => e.source = n.id := by
    unfold Diagram.linkingEdges
    rw [List.filter_filter]
    refine List.filter_congr fun e _ => ?_
    by_cases h : e.source = n.id
    · simp [h, hnode]
    · simp [h]
  unfold branches Diagram.branchEdges
  simp only [ofDiagram, Adjacency.kind?_ofDiagram] at hedges ⊢
  rw [hedges]

/-- A condition has a branch for each successor, by its exit. -/
theorem map_target_branches :
    ((ofDiagram options d).branches n).map (·.target) =
      ((Adjacency.ofDiagram d).successors n.id).map (d.exitId n.id) := by
  rw [branches_eq hn, successors_eq, List.map_map, List.map_map]
  exact List.map_congr_left fun e _ => successorId_eq hd hn e.target

end Blueprint

/-! ## What a node becomes -/

/-- What a node of the kind is to the engine. -/
def NodeKind.nodeType : NodeKind → ProcessNodeType
  | .start => .start
  | .finish => .finish
  | .user | .automation => .approval
  | .condition | .parallel | .inclusion => .gateway

/-- How a gateway of the kind joins. -/
def NodeKind.joinPolicy? : NodeKind → Option JoinPolicy
  | .condition => some .chainedCondition
  | .parallel => some .waitAll
  | .inclusion => some .onArrival
  | .start | .finish | .user | .automation => none

namespace Blueprint

/-- How a compiled node follows from the drawn one, as far as links and subscriptions go. -/
structure Lowers (b : Blueprint) (n : DiagramNode) (m : ProcessNode) : Prop where
  id : m.id = n.id
  type : m.type = n.kind.nodeType
  joinPolicy : m.joinPolicy? = n.kind.joinPolicy?
  predecessorIds : m.predecessorIds = b.predecessorIds n
  /-- A condition routes by its branches, any other gateway to all its successors. -/
  targets : ∀ g, m.gateway = some g →
    g.targets = if n.kind = .condition then (b.branches n).map (·.target)
      else (b.adjacency.successors n.id).map (b.successorId n)
  /-- An approval step waits for the completion of its branch at every gateway that it feeds. -/
  completion : n.kind.nodeType = .approval →
    ∀ e ∈ b.gatewayCompletionEvents n.id, e ∈ m.taskFinishEvents

/-- **All there is to know of a lowered node**, by cases on its kind. -/
theorem lowers_of_lower {b : Blueprint} {n : DiagramNode} {m : ProcessNode}
    (h : b.lower n = .ok m) : b.Lowers n m := by
  obtain ⟨id, kind, properties⟩ := n
  unfold lower at h
  cases kind with
  | start =>
    obtain rfl := Except.ok.inj h
    exact ⟨rfl, rfl, rfl, rfl, (fun _ hg => nomatch hg), nofun⟩
  | finish =>
    obtain rfl := Except.ok.inj h
    exact ⟨rfl, rfl, rfl, rfl, (fun _ hg => nomatch hg), nofun⟩
  | user =>
    dsimp only at h
    split at h
    · obtain rfl := Except.ok.inj h
      exact ⟨rfl, rfl, rfl, rfl, (fun _ hg => nomatch hg),
        fun _ e he => List.mem_append_left _ he⟩
    · cases h
  | automation =>
    dsimp only at h
    split at h
    · obtain rfl := Except.ok.inj h
      exact ⟨rfl, rfl, rfl, rfl, (fun _ hg => nomatch hg), fun _ e he => he⟩
    · cases h
  | condition =>
    obtain rfl := Except.ok.inj h
    refine ⟨rfl, rfl, rfl, rfl, fun g hg => ?_, nofun⟩
    obtain rfl := Option.some.inj hg
    exact List.append_nil _
  | parallel =>
    obtain rfl := Except.ok.inj h
    refine ⟨rfl, rfl, rfl, rfl, fun g hg => ?_, nofun⟩
    obtain rfl := Option.some.inj hg
    rfl
  | inclusion =>
    obtain rfl := Except.ok.inj h
    refine ⟨rfl, rfl, rfl, rfl, fun g hg => ?_, nofun⟩
    obtain rfl := Option.some.inj hg
    rfl

/-- **The targets of a compiled gateway are the successors of the drawn one, each by its exit**,
whichever of the two ways of finding them its kind takes. -/
theorem targets_lower {options : CompilerOptions} {d : Diagram} {n : DiagramNode} {m : ProcessNode}
    (hd : (d.nodes.map (·.id)).Nodup) (hn : n ∈ d.nodes)
    (hm : (ofDiagram options d).Lowers n m) {g : GatewayConfig} (hg : m.gateway = some g) :
    g.targets = ((Adjacency.ofDiagram d).successors n.id).map (d.exitId n.id) := by
  rw [hm.targets g hg]
  split
  · exact map_target_branches hd hn
  · exact List.map_congr_left fun s _ => successorId_eq hd hn s

end Blueprint

end ApprovalFlow
