import ApprovalFlow.Proofs.Definition.Links
import ApprovalFlow.Proofs.Dispatch.Verdict

/-!
# Edges and their proxies

The id of a proxy is put together from two ids, and nothing in it tells where the first one ends.
The compilation tells proxies apart by their ids alone. So two edges can end up with one proxy
between them, and a person can draw a node that is called like a proxy. An edge has a proxy of its
own just where neither happens.

- `Diagram.HasOwnProxy`: one node has the id of the edge's proxy, it stands between the ends of the
  edge, and nobody else is behind it.
- `Diagram.own_proxy_iff`: **an edge has a proxy of its own iff the id of its proxy is neither that
  of a drawn node nor that of another edge's proxy.**
- `Diagram.two_edges_one_proxy`: two edges with one proxy between them.
-/

namespace ApprovalFlow

namespace Blueprint.Parts

variable {b : Blueprint} {d : Diagram} {nodes : List DiagramNode} {emitted : List String}
  {lowered proxies : List ProcessNode}

/-- Of the proxies just one has the id that an edge asks for. -/
theorem exists_filter_proxies (hparts : b.Parts d emitted nodes lowered proxies) {q : String}
    {n : DiagramNode} (hn : n ∈ nodes) (hq : d.Proxied q n.id) (hmiss : proxyId q n.id ∉ emitted) :
    ∃ m ∈ proxies, m.id = proxyId q n.id ∧
      proxies.filter (fun m => m.id == proxyId q n.id) = [m] := by
  obtain ⟨m, hm, hid⟩ := hparts.complete n hn q hq hmiss
  refine ⟨m, hm, hid, ?_⟩
  obtain ⟨before, after, rfl⟩ := List.append_of_mem hm
  obtain ⟨-, hafter, hbefore⟩ := List.pairwise_append.mp hparts.distinct
  have hnone : before.filter (fun m => m.id == proxyId q n.id) = [] := by
    refine List.filter_eq_nil_iff.mpr fun m' hm' heq => ?_
    exact hbefore m' hm' m List.mem_cons_self ((beq_iff_eq.mp heq).trans hid.symm)
  have hnone' : after.filter (fun m => m.id == proxyId q n.id) = [] := by
    refine List.filter_eq_nil_iff.mpr fun m' hm' heq => ?_
    exact (List.pairwise_cons.mp hafter).1 m' hm' (hid.trans (beq_iff_eq.mp heq).symm)
  have hsome : (m :: after).filter (fun m => m.id == proxyId q n.id) =
      m :: after.filter (fun m => m.id == proxyId q n.id) :=
    List.filter_cons_of_pos (beq_iff_eq.mpr hid)
  rw [List.filter_append, hnone, hsome, hnone']
  rfl

end Blueprint.Parts

/-! ## Proxies of their own -/

namespace Diagram

/-- Does an edge have a proxy of its own? One node has the id of the edge's proxy. It follows the
beginning of the edge, and it is told of tasks in front of gateways like the end of the edge. Of all
nodes just the one of that end lists it. -/
structure HasOwnProxy (d : Diagram) (options : CompilerOptions) (p : ProcessDefinition)
    (q s : String) : Prop where
  alone : ∃ m, p.nodes.filter (fun m => m.id == proxyId q s) = [m] ∧ m.predecessorIds = [q] ∧
    ∃ e kind, m.taskFinishEvents = [EventName.text e] ∧ d.kindOf? s = some kind ∧
      e.joinPolicy? = kind.joinPolicy?
  listed : ∀ t ∈ p.nodes, proxyId q s ∈ t.predecessorIds ↔
    ∃ n ∈ d.nodes, n.id = s ∧ (Blueprint.ofDiagram options d).lower n = .ok t

/-- Is the id of an edge's proxy neither that of a drawn node nor that of another edge's proxy? -/
def Unshared (d : Diagram) (q s : String) : Prop :=
  (∀ n ∈ d.nodes, n.id ≠ proxyId q s) ∧
    ∀ q' s', d.Proxied q' s' → proxyId q' s' = proxyId q s → q' = q ∧ s' = s

/-- In a diagram where no two things share an id, no edge shares the id of its proxy. -/
theorem Unambiguous.unshared {d : Diagram} (hd : d.Unambiguous) {q s : String}
    (hq : d.Proxied q s) : d.Unshared q s :=
  ⟨fun _ hn => hd.ne_proxyId hn q s, fun _ _ hq' hid => hd.proxyId_inj _ _ _ _ hq' hq hid⟩

variable {options : CompilerOptions} {name : String} {d : Diagram} {p : ProcessDefinition}

/-- An edge that needs a proxy ends at a gateway with a completion event, and of that event alone
the proxy is told. -/
theorem exists_completionEvent (hd : (d.nodes.map (·.id)).Nodup) {n : DiagramNode}
    (hn : n ∈ d.nodes) {q : String} (hq : d.Proxied q n.id) :
    ∃ e, completionEvents n.kind = [EventName.text e] ∧ e.joinPolicy? = n.kind.joinPolicy? := by
  have hbridge := hq.2
  rw [bridges_eq hd hn] at hbridge
  cases hkind : n.kind with
  | parallel => exact ⟨.taskParallelPass, rfl, rfl⟩
  | inclusion => exact ⟨.taskInclusionPass, rfl, rfl⟩
  | start | finish | user | condition | automation =>
    -- edges to the other kinds need no proxy
    rw [hkind] at hbridge
    cases hprev : d.kindOf? q with
    | none =>
      rw [hprev] at hbridge
      cases hbridge
    | some k =>
      rw [hprev] at hbridge
      exact absurd hbridge (by simp [needsProxy, NodeKind.isConcurrent])

section

variable {q s : String} (hd : (d.nodes.map (·.id)).Nodup) (hc : d.compile options name = .ok p)

include hd hc

/-- No other node than that of the edge's end lists an unshared proxy. -/
theorem Unshared.exists_lowered (hunshared : d.Unshared q s) {t : ProcessNode} (ht : t ∈ p.nodes)
    (hlists : proxyId q s ∈ t.predecessorIds) :
    ∃ n ∈ d.nodes, n.id = s ∧ (Blueprint.ofDiagram options d).lower n = .ok t := by
  -- the beginning of an edge is drawn, so it does not have the id
  have hbegin : ∀ q' s', d.HasEdge q' s' → q' ≠ proxyId q s := by
    rintro q' s' ⟨-, ⟨n, hn, rfl⟩, -⟩
    exact hunshared.1 n hn
  rcases mem_of_compile hd hc ht with ⟨n, hn, hl⟩ | ⟨n, -, q', hq', rfl⟩
  · obtain ⟨q', hq', hentry⟩ :=
      ((Blueprint.lowers_of_lower hl).mem_predecessorIds_iff hd hn).mp hlists
    unfold entryId at hentry
    split at hentry
    · rename_i hbridge
      obtain ⟨-, hs⟩ := hunshared.2 q' n.id ⟨hq', hbridge⟩ hentry
      exact ⟨n, hn, hs, hl⟩
    · exact absurd hentry (hbegin q' n.id hq')
  · have hsame : proxyId q s = q' := List.mem_singleton.mp hlists
    exact absurd hsame.symm (hbegin q' n.id hq'.1)

/-- The nodes with the id of an edge's proxy are the drawn ones with that id, and one proxy. -/
theorem exists_filter_nodes (hq : d.Proxied q s) :
    ∃ drawn m, (p.nodes.filter fun m => m.id == proxyId q s).Perm (drawn ++ [m]) ∧
      drawn.length = (d.nodes.filter fun n => n.id == proxyId q s).length ∧
      m.id = proxyId q s ∧ ∃ n ∈ d.nodes, ∃ q', d.Proxied q' n.id ∧ m = proxyNode q' n.id n.kind := by
  obtain ⟨n, hn, rfl⟩ := hq.1.2.2
  obtain ⟨lowered, proxies, hperm, hparts⟩ :=
    Blueprint.exists_parts hd (fun _ h => h) (lowerAll_of_compile hc)
  obtain ⟨m, hm, hid, hfilter⟩ := hparts.exists_filter_proxies hn hq List.not_mem_nil
  refine ⟨lowered.filter fun m => m.id == proxyId q n.id, m, ?_, ?_, hid, hparts.proxy m hm⟩
  · rw [← hfilter, ← List.filter_append]
    exact hperm.filter _
  · have hids := congrArg (List.countP (· == proxyId q n.id))
      (Blueprint.map_id_of_lowered hparts.lowered)
    rw [List.countP_map, List.countP_map] at hids
    rw [← List.countP_eq_length_filter, ← List.countP_eq_length_filter]
    exact hids

/-- An edge with a proxy of its own does not share the id. -/
theorem HasOwnProxy.unshared (hq : d.Proxied q s) (hown : d.HasOwnProxy options p q s) :
    d.Unshared q s := by
  obtain ⟨⟨m, hsingle, -⟩, hlisted⟩ := hown
  constructor
  · -- a drawn node with the id would be there besides the proxy
    intro n hn hid
    obtain ⟨drawn, m', hperm, hdrawn, -⟩ := exists_filter_nodes hd hc hq
    have hin : n ∈ d.nodes.filter fun n => n.id == proxyId q s :=
      List.mem_filter.mpr ⟨hn, beq_iff_eq.mpr hid⟩
    have hpos := List.length_pos_of_mem hin
    have hlength := hperm.length_eq
    rw [hsingle, List.length_append, List.length_singleton, List.length_singleton] at hlength
    omega
  · -- the end of another edge would list the proxy
    intro q' s' hq' hid
    obtain ⟨n, hn, rfl⟩ := hq'.1.2.2
    obtain ⟨t, ht, hl⟩ := exists_lowered_of_compile hc hn
    have hlists := (Blueprint.lowers_of_lower hl).proxyId_mem_predecessorIds hd hn hq'
    rw [hid] at hlists
    obtain ⟨n', -, rfl, hl'⟩ := (hlisted t ht).mp hlists
    have hends : n.id = n'.id :=
      (Blueprint.lowers_of_lower hl).id.symm.trans (Blueprint.lowers_of_lower hl').id
    rw [hends] at hid
    exact ⟨proxyId_left_inj.mp hid, hends⟩

/-- An edge that does not share the id has a proxy of its own. -/
theorem Unshared.hasOwnProxy (hq : d.Proxied q s) (hunshared : d.Unshared q s) :
    d.HasOwnProxy options p q s := by
  constructor
  case alone =>
    obtain ⟨drawn, m, hperm, hdrawn, hid, n, hn, q', hq', rfl⟩ := exists_filter_nodes hd hc hq
    have hnone : (d.nodes.filter fun n => n.id == proxyId q s) = [] :=
      List.filter_eq_nil_iff.mpr fun n' hn' heq => hunshared.1 n' hn' (beq_iff_eq.mp heq)
    rw [hnone, List.length_nil, List.length_eq_zero_iff] at hdrawn
    rw [hdrawn, List.nil_append] at hperm
    -- the one proxy with the id is that of the edge
    obtain ⟨rfl, rfl⟩ := hunshared.2 q' n.id hq' hid
    obtain ⟨e, hevents, he⟩ := exists_completionEvent hd hn hq
    exact ⟨_, List.perm_singleton.mp hperm, rfl, e, n.kind, hevents, kindOf?_eq hd hn, he⟩
  case listed =>
    intro t ht
    refine ⟨hunshared.exists_lowered hd hc ht, ?_⟩
    rintro ⟨n, hn, rfl, hl⟩
    exact (Blueprint.lowers_of_lower hl).proxyId_mem_predecessorIds hd hn hq

end

/-- **An edge has a proxy of its own iff the id of its proxy is neither that of a drawn node nor
that of another edge's proxy.** -/
theorem own_proxy_iff (hd : (d.nodes.map (·.id)).Nodup) (hc : d.compile options name = .ok p) :
    ∀ q s, d.Proxied q s → (d.HasOwnProxy options p q s ↔ d.Unshared q s) := by
  intro q s hq
  constructor
  · exact HasOwnProxy.unshared hd hc hq
  · exact Unshared.hasOwnProxy hd hc hq

/-- The choice in front of the parallel gateway has a proxy of its own. -/
theorem own_proxy_iff_chained :
    ∃ p, chained.compile {} "chained" = .ok p ∧ chained.Proxied "C" "P" ∧
      chained.HasOwnProxy {} p "C" "P" := by
  have hd : chained.Unambiguous := by decide
  have hq : chained.Proxied "C" "P" := by decide
  obtain ⟨p, hp⟩ : ∃ p, chained.compile {} "chained" = .ok p := ⟨_, rfl⟩
  exact ⟨p, hp, hq, (own_proxy_iff hd.distinct hp "C" "P" hq).mpr (hd.unshared hq)⟩

/-- Two choices, each in front of a gateway, whose ids run together in the same way. -/
def runTogether : Diagram where
  nodes := [⟨"a", .condition, .condition ""⟩, ⟨"a_b", .condition, .condition ""⟩,
    ⟨"b_c", .parallel, .gateway ""⟩, ⟨"c", .parallel, .gateway ""⟩]
  edges := [⟨"e1", "a", "b_c", {}⟩, ⟨"e2", "a_b", "c", {}⟩]

/-- Two edges can have one proxy between them, and it follows the beginning of only one. -/
theorem two_edges_one_proxy :
    ¬ ∀ (d : Diagram) (options : CompilerOptions) (name : String) (p : ProcessDefinition),
      (d.nodes.map (·.id)).Nodup → d.compile options name = .ok p →
        ∀ q s, d.Proxied q s → d.HasOwnProxy options p q s := by
  intro h
  have hd : (runTogether.nodes.map (·.id)).Nodup := by decide
  have hq : runTogether.Proxied "a_b" "c" := by decide
  obtain ⟨p, hp, hfound⟩ : ∃ p, runTogether.compile {} "two" = .ok p ∧
      (p.nodes.filter fun m => m.id == proxyId "a_b" "c").map (·.predecessorIds) = [["a"]] :=
    ⟨_, rfl, by decide⟩
  obtain ⟨⟨m, hsingle, hpred, -⟩, -⟩ := h runTogether {} "two" p hd hp "a_b" "c" hq
  rw [hsingle, List.map_singleton, hpred] at hfound
  exact absurd hfound (by decide)

end Diagram

end ApprovalFlow
