import ApprovalFlow.Proofs.Definition.SystemNodes

/-!
# Proxies in time

A proxy belongs on just the edges between two gateways that the engine cannot follow, and it comes in
front of every node that lists it among its predecessors. The compilation sees to it round by round:
the proxies that a node lists were emitted before its round, or they are emitted in it, in front of
the node.

- `Diagram.Bridged`: the edges that need a proxy, by the kinds at their ends.
- `Blueprint.emitted_before`: **a proxy stands before every node that lists it.**
- `Diagram.proxies_interleave`: the list is made of the lowered nodes in order and of the proxies of
  these edges, of which no two have one id.
-/

namespace ApprovalFlow

/-! ## The edges that need a proxy -/

theorem needsProxy_iff {j k : NodeKind} : needsProxy j k = true ↔
    (j = .condition ∨ j = .parallel ∨ j = .inclusion) ∧ (k = .parallel ∨ k = .inclusion) := by
  cases j <;> cases k <;> decide

namespace Diagram

variable {d : Diagram}

/-- Does the edge lead from a gateway to one that opens or joins several branches at once? -/
def Bridged (d : Diagram) (e : DiagramEdge) : Prop :=
  ∃ n ∈ d.nodes, ∃ n' ∈ d.nodes, n.id = e.source ∧ n'.id = e.target ∧
    (n.kind = .condition ∨ n.kind = .parallel ∨ n.kind = .inclusion) ∧
    (n'.kind = .parallel ∨ n'.kind = .inclusion)

theorem proxied_iff_bridged (hd : (d.nodes.map (·.id)).Nodup) {q s : String} :
    d.Proxied q s ↔ ∃ e ∈ d.edges, d.Bridged e ∧ e.source = q ∧ e.target = s := by
  constructor
  · rintro ⟨⟨⟨e, he, rfl, rfl⟩, ⟨n, hn, hq⟩, n', hn', hs⟩, hbridges⟩
    refine ⟨e, he, ⟨n, hn, n', hn', hq, hs, ?_⟩, rfl, rfl⟩
    rw [← hq, ← hs, bridges_eq hd hn', kindOf?_eq hd hn] at hbridges
    exact needsProxy_iff.mp hbridges
  · rintro ⟨e, he, ⟨n, hn, n', hn', hq, hs, hkinds⟩, rfl, rfl⟩
    refine ⟨⟨⟨e, he, rfl, rfl⟩, ⟨n, hn, hq⟩, n', hn', hs⟩, ?_⟩
    rw [← hq, ← hs, bridges_eq hd hn', kindOf?_eq hd hn]
    exact needsProxy_iff.mpr hkinds

end Diagram

/-! ## The order of the list -/

namespace Blueprint

variable {options : CompilerOptions} {d : Diagram} {n : DiagramNode} {nodes : List DiagramNode}
  {emitted : List String} {before after : List ProcessNode} {t : ProcessNode} {x : String}
  (hd : (d.nodes.map (·.id)).Nodup) (hplain : ∀ n ∈ d.nodes, hasProxyMark n.id = false)

include hd hplain

/-- The proxies that a lowered node lists were emitted before its round or are emitted in it. -/
theorem exists_newProxy (hn : n ∈ d.nodes) (hl : (ofDiagram options d).lower n = .ok t)
    (hx : x ∈ t.predecessorIds) (hmark : hasProxyMark x = true) :
    x ∈ emitted ∨ ∃ m ∈ (ofDiagram options d).newProxies emitted n, m.id = x := by
  obtain ⟨q, hq, rfl⟩ := ((lowers_of_lower hl).mem_predecessorIds_iff hd hn).mp hx
  unfold Diagram.entryId at hmark ⊢
  split at hmark
  · rename_i hbridges
    rw [if_pos hbridges]
    by_cases hmem : proxyId q n.id ∈ emitted
    · exact .inl hmem
    · exact .inr ⟨_, (mem_newProxies_iff hd hn).mpr ⟨q, ⟨hq, hbridges⟩, hmem, rfl⟩, rfl⟩
  · -- the beginning of the edge is a drawn node
    obtain ⟨n', hn', rfl⟩ := hq.2.1
    rw [hplain n' hn'] at hmark
    cases hmark

/-- A proxy lists no proxy. -/
theorem unmarked_of_mem_newProxies (hn : n ∈ d.nodes)
    (ht : t ∈ (ofDiagram options d).newProxies emitted n) (hx : x ∈ t.predecessorIds) :
    hasProxyMark x = false := by
  obtain ⟨q, hq, -, rfl⟩ := (mem_newProxies_iff hd hn).mp ht
  obtain rfl := List.mem_singleton.mp hx
  obtain ⟨n', hn', rfl⟩ := hq.1.2.1
  exact hplain n' hn'

/-- **Whatever proxy a node lists was emitted before it.** By induction on the nodes to come; the
list is cut among the proxies of a round, at its node, or behind it. -/
theorem emitted_before (hsub : ∀ n ∈ nodes, n ∈ d.nodes)
    (h : (ofDiagram options d).lowerAll emitted nodes = .ok (before ++ t :: after))
    (hx : x ∈ t.predecessorIds) (hmark : hasProxyMark x = true) :
    x ∈ emitted ∨ ∃ m ∈ before, m.id = x := by
  induction nodes generalizing emitted before with
  | nil =>
    have hnil := Except.ok.inj h
    exact absurd hnil.symm (by simp)
  | cons n rest ih =>
    have hn := hsub n List.mem_cons_self
    obtain ⟨node, tail, hnode, htail, hcut⟩ := lowerAll_cons_eq_ok.mp h
    have hround : t = node → before = (ofDiagram options d).newProxies emitted n →
        x ∈ emitted ∨ ∃ m ∈ before, m.id = x := by
      rintro rfl rfl
      exact exists_newProxy hd hplain hn hnode hx hmark
    rcases List.append_eq_append_iff.mp hcut with ⟨cs, hnew, hrest⟩ | ⟨cs, hbefore, hrest⟩
    · cases cs with
      | nil => exact hround (List.cons_eq_cons.mp hrest).1 (by simpa using hnew.symm)
      | cons c cs =>
        obtain ⟨rfl, -⟩ := List.cons_eq_cons.mp hrest
        have ht : t ∈ (ofDiagram options d).newProxies emitted n := by simp [hnew]
        rw [unmarked_of_mem_newProxies hd hplain hn ht hx] at hmark
        cases hmark
    · cases cs with
      | nil => exact hround (List.cons_eq_cons.mp hrest).1.symm (by simpa using hbefore)
      | cons c cs =>
        obtain ⟨rfl, rfl⟩ := List.cons_eq_cons.mp hrest
        subst hbefore
        rcases ih (fun n' hn' => hsub n' (List.mem_cons_of_mem n hn')) htail with hmem | ⟨m, hm, hid⟩
        · rcases List.mem_append.mp hmem with hmem | hmem
          · exact .inl hmem
          · obtain ⟨m, hm, hid⟩ := List.mem_map.mp hmem
            exact .inr ⟨m, List.mem_append_left _ hm, hid⟩
        · exact .inr ⟨m, List.mem_append_right _ (List.mem_cons_of_mem _ hm), hid⟩

end Blueprint

/-! ## Compiled definitions -/

namespace Diagram

variable {options : CompilerOptions} {name : String} {d : Diagram} {p : ProcessDefinition}

/-- **Proxies are emitted where they are needed, once, and in time.** Let the ids of nodes differ and
none be called like a proxy. Then the compiled list is made of the lowered nodes, each once and in
the order of the diagram, and of proxies. The ids of the proxies differ, and they are those of the
edges between nodes from a condition, parallel or inclusion gateway to a parallel or inclusion one.
Every proxy stands before every node that lists it. -/
theorem proxies_interleave (hd : (d.nodes.map (·.id)).Nodup)
    (hplain : ∀ n ∈ d.nodes, hasProxyMark n.id = false) (hc : d.compile options name = .ok p) :
    ∃ lowered proxies, Interleaves lowered proxies p.nodes ∧
      List.Forall₂ (fun n m => (Blueprint.ofDiagram options d).lower n = .ok m) d.nodes lowered ∧
      (∀ m ∈ proxies, d.Synthesised m) ∧ (proxies.map (·.id)).Nodup ∧
      (∀ x, x ∈ proxies.map (·.id) ↔
        ∃ e ∈ d.edges, d.Bridged e ∧ x = proxyId e.source e.target) ∧
      ∀ before t after, p.nodes = before ++ t :: after → ∀ m ∈ proxies, m.id ∈ t.predecessorIds →
        m ∈ before ∧ m ∉ t :: after := by
  have hall := lowerAll_of_compile hc
  obtain ⟨lowered, proxies, hinterleaves, hparts⟩ :=
    Blueprint.exists_interleaved hd (fun _ hn => hn) hall
  have hdistinct := Blueprint.lowerAll_pairwise hd (fun _ hn => hn) hall hd hplain
  refine ⟨lowered, proxies, hinterleaves, hparts.lowered, hparts.proxy,
    List.pairwise_map.mpr hparts.distinct, fun x => ?_, fun before t after hcut m hm hlists => ?_⟩
  · constructor
    · intro hx
      obtain ⟨m, hm, rfl⟩ := List.mem_map.mp hx
      obtain ⟨n, -, q, hq, rfl⟩ := hparts.proxy m hm
      obtain ⟨e, he, hbridged, rfl, htarget⟩ := (proxied_iff_bridged hd).mp hq
      exact ⟨e, he, hbridged, by rw [htarget]; rfl⟩
    · rintro ⟨e, he, hbridged, rfl⟩
      have hq := (proxied_iff_bridged hd).mpr ⟨e, he, hbridged, rfl, rfl⟩
      obtain ⟨n, hn, hid⟩ := hq.1.2.2
      rw [← hid] at hq ⊢
      obtain ⟨m, hm, hmid⟩ := hparts.complete n hn _ hq List.not_mem_nil
      exact List.mem_map.mpr ⟨m, hm, hmid⟩
  · have hmark : hasProxyMark m.id = true := by
      obtain ⟨n, -, q, -, rfl⟩ := hparts.proxy m hm
      exact hasProxyMark_proxyId q n.id
    have hmem : m ∈ p.nodes := hinterleaves.perm.mem_iff.mpr (List.mem_append_right _ hm)
    rw [hcut] at hall hdistinct hmem
    obtain ⟨m', hm', hid⟩ : ∃ m' ∈ before, m'.id = m.id := by
      rcases Blueprint.emitted_before hd hplain (fun _ hn => hn) hall hlists hmark with hnil | h
      · cases hnil
      · exact h
    -- a node behind `m'` has another id
    have hafter : m ∉ t :: after := fun h =>
      (List.pairwise_append.mp hdistinct).2.2 m' hm' m h hid
    exact ⟨(List.mem_append.mp hmem).resolve_right hafter, hafter⟩

theorem proxies_interleave_chained :
    ∃ p, chained.compile {} "chained" = .ok p ∧
      ∃ lowered proxies, Interleaves lowered proxies p.nodes ∧
        lowered.map (·.id) = chained.nodes.map (·.id) ∧ (proxies.map (·.id)).Nodup ∧
        (∀ x, x ∈ proxies.map (·.id) ↔
          ∃ e ∈ chained.edges, chained.Bridged e ∧ x = proxyId e.source e.target) ∧
        ∀ before t after, p.nodes = before ++ t :: after → ∀ m ∈ proxies,
          m.id ∈ t.predecessorIds → m ∈ before ∧ m ∉ t :: after := by
  obtain ⟨p, hp⟩ : ∃ p, chained.compile {} "chained" = .ok p := ⟨_, rfl⟩
  obtain ⟨lowered, proxies, hinterleaves, hlowered, -, hnodup, hids, hbefore⟩ :=
    proxies_interleave (by decide) (by decide) hp
  exact ⟨p, hp, lowered, proxies, hinterleaves, Blueprint.map_id_of_lowered hlowered, hnodup, hids,
    hbefore⟩

end Diagram

end ApprovalFlow
