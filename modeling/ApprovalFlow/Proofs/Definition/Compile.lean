import ApprovalFlow.Proofs.Definition.Bridges

/-!
# The nodes of a compiled definition

The compilation goes through the nodes of a diagram and keeps the ids of the proxies that it has
emitted. The statements about the resulting list are inductions on the nodes still to come, for any
ids emitted so far; what carries them is that a proxy is left out only if its id was emitted before.

- `Blueprint.lowerAll_cons_eq_ok`: one round of the loop.
- `Blueprint.Parts`, `Blueprint.exists_interleaved`: **the list consists of the lowered nodes, in
  order, and among them of proxies with different ids**, one for each id that an edge asks for. This
  goes for ids that may even clash with those of proxies.
- `Blueprint.mem_of_lowerAll`, `Blueprint.exists_lowered`, `Blueprint.exists_proxy`: what is in the
  list.
- `Blueprint.unmarked_of_lowerAll`, `Blueprint.marked_of_lowerAll`: if no drawn node is called like a
  proxy, the list is told apart by the ids, whether or not the ids of drawn nodes repeat.
- `Diagram.Unambiguous.mem_nodes_iff`: **the nodes of a compiled definition are the lowered nodes and
  one proxy for each edge that needs one**, if no two of these share an id.
- `Diagram.Unambiguous.nodup_ids`, `Diagram.Unambiguous.drawn_in_order`: the ids differ, and the
  drawn nodes come in the order of the diagram.
-/

namespace ApprovalFlow

/-! ## Two lists in one -/

/-- Is a list made of two others, each with its items in order? -/
inductive Interleaves {α : Type} : (xs ys out : List α) → Prop
  | nil : Interleaves [] [] []
  | left {x : α} {xs ys out : List α} (h : Interleaves xs ys out) :
      Interleaves (x :: xs) ys (x :: out)
  | right {y : α} {xs ys out : List α} (h : Interleaves xs ys out) :
      Interleaves xs (y :: ys) (y :: out)

namespace Interleaves

variable {α : Type} {xs ys out : List α}

theorem perm (h : Interleaves xs ys out) : out.Perm (xs ++ ys) := by
  induction h with
  | nil => exact .nil
  | left _ ih => exact ih.cons _
  | right _ ih => exact (ih.cons _).trans List.perm_middle.symm

theorem append_right (zs : List α) (h : Interleaves xs ys out) :
    Interleaves xs (zs ++ ys) (zs ++ out) := by
  induction zs with
  | nil => exact h
  | cons z zs ih => exact ih.right

end Interleaves

/-- What stands on the right of two related lists has a partner on the left. -/
theorem exists_left_of_forall₂ {α β : Type} {R : α → β → Prop} {xs : List α} {ys : List β}
    (h : List.Forall₂ R xs ys) {y : β} (hy : y ∈ ys) : ∃ x ∈ xs, R x y := by
  induction h with
  | nil => cases hy
  | cons hxy _ ih =>
    rcases List.mem_cons.mp hy with rfl | hy
    · exact ⟨_, List.mem_cons_self, hxy⟩
    · obtain ⟨x, hx, hr⟩ := ih hy
      exact ⟨x, List.mem_cons_of_mem _ hx, hr⟩

namespace Blueprint

variable {b : Blueprint} {options : CompilerOptions} {d : Diagram} {n : DiagramNode}
  {nodes : List DiagramNode} {emitted : List String} {out : List ProcessNode}

/-! ## One round -/

/-- One round emits the missing proxies, then the node, and goes on. -/
theorem lowerAll_cons_eq_ok {rest : List DiagramNode} :
    b.lowerAll emitted (n :: rest) = .ok out ↔
      ∃ node tail, b.lower n = .ok node ∧
        b.lowerAll (emitted ++ (b.newProxies emitted n).map (·.id)) rest = .ok tail ∧
        out = b.newProxies emitted n ++ node :: tail := by
  rw [lowerAll]
  cases hn : b.lower n with
  | error e => simp
  | ok node =>
    cases ht : b.lowerAll (emitted ++ (b.newProxies emitted n).map (·.id)) rest with
    | error e => simp [Except.map]
    | ok tail => simp [Except.map, eq_comm]

/-- The proxies that a node adds are those of the edges to it that need one, but for the ids that
were emitted. -/
theorem mem_newProxies_iff (hd : (d.nodes.map (·.id)).Nodup) (hn : n ∈ d.nodes) {m : ProcessNode} :
    m ∈ (ofDiagram options d).newProxies emitted n ↔
      ∃ p, d.Proxied p n.id ∧ proxyId p n.id ∉ emitted ∧ m = proxyNode p n.id n.kind := by
  unfold newProxies Diagram.Proxied
  simp only [List.mem_filterMap, Prod.exists, Diagram.bridges_eq hd hn]
  constructor
  · rintro ⟨p, k, hp, hm⟩
    obtain ⟨hedge, hk⟩ := mem_incoming_iff.mp hp
    split at hm
    · rename_i h
      rw [Bool.and_eq_true, Bool.not_eq_true', ← Bool.not_eq_true, List.contains_iff_mem] at h
      refine ⟨p, ⟨hedge, ?_⟩, h.2, (Option.some.inj hm).symm⟩
      rw [hk]
      exact h.1
    · cases hm
  · rintro ⟨p, ⟨hedge, hneeds⟩, hnew, rfl⟩
    obtain ⟨k, hk⟩ := Option.isSome_iff_exists.mp (Diagram.isSome_kindOf?.mpr hedge.2.1)
    rw [hk] at hneeds
    refine ⟨p, k, mem_incoming_iff.mpr ⟨hedge, hk⟩, if_pos ?_⟩
    rw [Bool.and_eq_true, Bool.not_eq_true', ← Bool.not_eq_true, List.contains_iff_mem]
    exact ⟨hneeds, hnew⟩

/-- What a node adds are proxies, by ids that were not emitted. -/
theorem exists_of_mem_newProxies {m : ProcessNode} (hm : m ∈ b.newProxies emitted n) :
    ∃ p, m = proxyNode p n.id n.kind ∧ m.id ∉ emitted := by
  obtain ⟨⟨p, k⟩, -, hm⟩ := List.mem_filterMap.mp hm
  dsimp only at hm
  split at hm
  · rename_i h
    rw [Bool.and_eq_true, Bool.not_eq_true', ← Bool.not_eq_true, List.contains_iff_mem] at h
    obtain rfl := Option.some.inj hm
    exact ⟨p, rfl, h.2⟩
  · cases hm

/-- The proxies that a node adds are called like proxies, and by ids that were not emitted. -/
theorem marked_of_mem_newProxies {m : ProcessNode} (hm : m ∈ b.newProxies emitted n) :
    hasProxyMark m.id = true ∧ m.id ∉ emitted := by
  obtain ⟨p, rfl, hnew⟩ := exists_of_mem_newProxies hm
  exact ⟨hasProxyMark_proxyId p n.id, hnew⟩

/-- The proxies that a node adds differ in their ids, since its predecessors differ. -/
theorem newProxies_pairwise (emitted : List String) (n : DiagramNode) :
    ((ofDiagram options d).newProxies emitted n).Pairwise (fun m m' => m.id ≠ m'.id) := by
  have hincoming : ((ofDiagram options d).incoming n).Pairwise (fun e e' => e.1 ≠ e'.1) := by
    refine List.Pairwise.filterMap _ (fun p p' hne e he e' he' => ?_)
      (Adjacency.nodup_predecessors d n.id)
    obtain ⟨k, -, rfl⟩ := Option.map_eq_some_iff.mp he
    obtain ⟨k', -, rfl⟩ := Option.map_eq_some_iff.mp he'
    exact hne
  refine List.Pairwise.filterMap _ (fun e e' hne m hm m' hm' => ?_) hincoming
  obtain ⟨p, k⟩ := e
  obtain ⟨p', k'⟩ := e'
  dsimp only at hm hm'
  split at hm
  · split at hm'
    · obtain rfl := Option.some.inj hm
      obtain rfl := Option.some.inj hm'
      exact fun h => hne (proxyId_left_inj.mp h)
    · cases hm'
  · cases hm

/-! ## All rounds -/

/-- Every node of the diagram becomes a node of the definition. -/
theorem exists_lowered (h : b.lowerAll emitted nodes = .ok out) (hn : n ∈ nodes) :
    ∃ m ∈ out, b.lower n = .ok m := by
  induction nodes generalizing emitted out with
  | nil => cases hn
  | cons n' rest ih =>
    obtain ⟨node, tail, hnode, htail, rfl⟩ := lowerAll_cons_eq_ok.mp h
    rcases List.mem_cons.mp hn with rfl | hn
    · exact ⟨node, List.mem_append_right _ List.mem_cons_self, hnode⟩
    · obtain ⟨m, hm, hl⟩ := ih htail hn
      exact ⟨m, List.mem_append_right _ (List.mem_cons_of_mem _ hm), hl⟩

/-- Lowered nodes have the ids of the drawn ones, in order. -/
theorem map_id_of_lowered {lowered : List ProcessNode}
    (h : List.Forall₂ (fun n m => b.lower n = .ok m) nodes lowered) :
    lowered.map (·.id) = nodes.map (·.id) := by
  induction h with
  | nil => rfl
  | cons hnode _ ih => rw [List.map_cons, List.map_cons, ih, (lowers_of_lower hnode).id]

/-- What the rounds over some nodes emit, taken apart into the lowered nodes and the proxies.
`emitted` are the ids of the proxies before them. -/
structure Parts (b : Blueprint) (d : Diagram) (emitted : List String) (nodes : List DiagramNode)
    (lowered proxies : List ProcessNode) : Prop where
  lowered : List.Forall₂ (fun n m => b.lower n = .ok m) nodes lowered
  proxy : ∀ m ∈ proxies, ∃ n ∈ nodes, ∃ q, d.Proxied q n.id ∧ m = proxyNode q n.id n.kind
  fresh : ∀ m ∈ proxies, m.id ∉ emitted
  distinct : proxies.Pairwise (fun m m' => m.id ≠ m'.id)
  complete : ∀ n ∈ nodes, ∀ q, d.Proxied q n.id → proxyId q n.id ∉ emitted →
    ∃ m ∈ proxies, m.id = proxyId q n.id

namespace Parts

variable {lowered proxies : List ProcessNode} (hparts : b.Parts d emitted nodes lowered proxies)

include hparts

/-- A lowered node comes from a drawn one. -/
theorem exists_of_mem_lowered {m : ProcessNode} (hm : m ∈ lowered) :
    ∃ n ∈ nodes, b.lower n = .ok m :=
  exists_left_of_forall₂ hparts.lowered hm

omit hparts in
/-- What one round adds to the parts of the rounds after it. -/
theorem cons {rest : List DiagramNode} {node : ProcessNode} {new : List ProcessNode}
    (hnode : b.lower n = .ok node)
    (hnew : ∀ m, m ∈ new ↔
      ∃ q, d.Proxied q n.id ∧ proxyId q n.id ∉ emitted ∧ m = proxyNode q n.id n.kind)
    (hpairwise : new.Pairwise (fun m m' => m.id ≠ m'.id))
    (hrest : b.Parts d (emitted ++ new.map (·.id)) rest lowered proxies) :
    b.Parts d emitted (n :: rest) (node :: lowered) (new ++ proxies) := by
  have hfresh : ∀ m ∈ proxies, m.id ∉ emitted ∧ m.id ∉ new.map (·.id) := by
    intro m hm
    have hm := hrest.fresh m hm
    rw [List.mem_append, not_or] at hm
    exact hm
  constructor
  case lowered => exact .cons hnode hrest.lowered
  case proxy =>
    intro m hm
    rcases List.mem_append.mp hm with hm | hm
    · obtain ⟨q, hq, -, rfl⟩ := (hnew m).mp hm
      exact ⟨n, List.mem_cons_self, q, hq, rfl⟩
    · obtain ⟨n', hn', hq⟩ := hrest.proxy m hm
      exact ⟨n', List.mem_cons_of_mem _ hn', hq⟩
  case fresh =>
    intro m hm
    rcases List.mem_append.mp hm with hm | hm
    · obtain ⟨q, -, hmiss, rfl⟩ := (hnew m).mp hm
      exact hmiss
    · exact (hfresh m hm).1
  case distinct =>
    -- a proxy of a later round is left out if its id was emitted in this one
    refine List.pairwise_append.mpr ⟨hpairwise, hrest.distinct, fun m hm m' hm' heq => ?_⟩
    exact (hfresh m' hm').2 (heq ▸ List.mem_map_of_mem hm)
  case complete =>
    intro n' hn' q hq hmiss
    rcases List.mem_cons.mp hn' with rfl | hn'
    · have hm : proxyNode q n'.id n'.kind ∈ new := (hnew _).mpr ⟨q, hq, hmiss, rfl⟩
      exact ⟨_, List.mem_append_left _ hm, rfl⟩
    · by_cases hthis : proxyId q n'.id ∈ new.map (·.id)
      · obtain ⟨m, hm, hid⟩ := List.mem_map.mp hthis
        exact ⟨m, List.mem_append_left _ hm, hid⟩
      · have hmiss' : proxyId q n'.id ∉ emitted ++ new.map (·.id) := by
          rw [List.mem_append, not_or]
          exact ⟨hmiss, hthis⟩
        obtain ⟨m, hm, hid⟩ := hrest.complete n' hn' q hq hmiss'
        exact ⟨m, List.mem_append_right _ hm, hid⟩

end Parts

/-- **The rounds emit the lowered nodes, in order, and among them proxies of which no two have one
id.** -/
theorem exists_interleaved (hd : (d.nodes.map (·.id)).Nodup) (hsub : ∀ n ∈ nodes, n ∈ d.nodes)
    (h : (ofDiagram options d).lowerAll emitted nodes = .ok out) :
    ∃ lowered proxies, Interleaves lowered proxies out ∧
      (ofDiagram options d).Parts d emitted nodes lowered proxies := by
  induction nodes generalizing emitted out with
  | nil =>
    obtain rfl := Except.ok.inj h
    exact ⟨[], [], .nil, .nil, nofun, nofun, .nil, nofun⟩
  | cons n rest ih =>
    obtain ⟨node, tail, hnode, htail, rfl⟩ := lowerAll_cons_eq_ok.mp h
    obtain ⟨lowered, proxies, hinterleaves, hrest⟩ :=
      ih (fun n' hn' => hsub n' (List.mem_cons_of_mem _ hn')) htail
    exact ⟨node :: lowered, (ofDiagram options d).newProxies emitted n ++ proxies,
      hinterleaves.left.append_right _,
      .cons hnode (fun m => mem_newProxies_iff hd (hsub n List.mem_cons_self))
        (newProxies_pairwise emitted n) hrest⟩

/-- Up to order, the rounds emit the lowered nodes and the proxies. -/
theorem exists_parts (hd : (d.nodes.map (·.id)).Nodup) (hsub : ∀ n ∈ nodes, n ∈ d.nodes)
    (h : (ofDiagram options d).lowerAll emitted nodes = .ok out) :
    ∃ lowered proxies, out.Perm (lowered ++ proxies) ∧
      (ofDiagram options d).Parts d emitted nodes lowered proxies := by
  obtain ⟨lowered, proxies, hinterleaves, hparts⟩ := exists_interleaved hd hsub h
  exact ⟨lowered, proxies, hinterleaves.perm, hparts⟩

section Rounds

variable (hd : (d.nodes.map (·.id)).Nodup) (hsub : ∀ n ∈ nodes, n ∈ d.nodes)
  (h : (ofDiagram options d).lowerAll emitted nodes = .ok out)

include hd hsub h

/-- A node of the definition is a lowered node or a proxy that was not emitted before. -/
theorem mem_of_lowerAll {m : ProcessNode} (hm : m ∈ out) :
    (∃ n ∈ nodes, (ofDiagram options d).lower n = .ok m) ∨
      ∃ n ∈ nodes, ∃ p, d.Proxied p n.id ∧ proxyId p n.id ∉ emitted ∧
        m = proxyNode p n.id n.kind := by
  obtain ⟨lowered, proxies, hperm, hparts⟩ := exists_parts hd hsub h
  rcases List.mem_append.mp (hperm.mem_iff.mp hm) with hm | hm
  · exact .inl (hparts.exists_of_mem_lowered hm)
  · obtain ⟨n, hn, p, hp, rfl⟩ := hparts.proxy m hm
    exact .inr ⟨n, hn, p, hp, hparts.fresh _ hm, rfl⟩

/-- For every edge that needs a proxy there is a node with the id of that proxy, if none was emitted
before. -/
theorem exists_proxy {p : String} (hn : n ∈ nodes) (hp : d.Proxied p n.id) :
    proxyId p n.id ∈ emitted ∨ ∃ m ∈ out, m.id = proxyId p n.id := by
  obtain ⟨lowered, proxies, hperm, hparts⟩ := exists_parts hd hsub h
  by_cases hmem : proxyId p n.id ∈ emitted
  · exact .inl hmem
  · obtain ⟨m, hm, hid⟩ := hparts.complete n hn p hp hmem
    exact .inr ⟨m, hperm.mem_iff.mpr (List.mem_append_right _ hm), hid⟩

/-- If no node is called like a proxy, the ids of the definition differ, even if the proxies of two
edges have one id. -/
theorem lowerAll_pairwise (hnodes : (nodes.map (·.id)).Nodup)
    (hplain : ∀ n ∈ nodes, hasProxyMark n.id = false) :
    out.Pairwise (fun m m' => m.id ≠ m'.id) := by
  obtain ⟨lowered, proxies, hperm, hparts⟩ := exists_parts hd hsub h
  have hlowered : lowered.Pairwise (fun m m' => m.id ≠ m'.id) := by
    rw [← map_id_of_lowered hparts.lowered] at hnodes
    exact List.pairwise_map.mp hnodes
  refine (hperm.pairwise_iff fun hne => hne.symm).mpr
    (List.pairwise_append.mpr ⟨hlowered, hparts.distinct, fun m hm m' hm' heq => ?_⟩)
  -- a proxy is called like one
  obtain ⟨n, hn, hl⟩ := hparts.exists_of_mem_lowered hm
  obtain ⟨n', -, q, -, rfl⟩ := hparts.proxy m' hm'
  have hmark : hasProxyMark m.id = true := heq ▸ hasProxyMark_proxyId q n'.id
  rw [(lowers_of_lower hl).id, hplain n hn] at hmark
  cases hmark

end Rounds

/-! ## Nodes that are not called like proxies -/

/-- If no drawn node is called like a proxy, the nodes of the definition that are not either are the
drawn ones, lowered in order, whether or not ids repeat. -/
theorem unmarked_of_lowerAll (h : b.lowerAll emitted nodes = .ok out)
    (hplain : ∀ n ∈ nodes, hasProxyMark n.id = false) :
    List.Forall₂ (fun n m => b.lower n = .ok m) nodes
      (out.filter fun m => !hasProxyMark m.id) := by
  induction nodes generalizing emitted out with
  | nil =>
    obtain rfl := Except.ok.inj h
    exact .nil
  | cons n rest ih =>
    obtain ⟨node, tail, hnode, htail, rfl⟩ := lowerAll_cons_eq_ok.mp h
    have hproxies : (b.newProxies emitted n).filter (fun m => !hasProxyMark m.id) = [] :=
      List.filter_eq_nil_iff.mpr fun m hm => by simp [(marked_of_mem_newProxies hm).1]
    have hkept : (!hasProxyMark node.id) = true := by
      rw [(lowers_of_lower hnode).id, hplain n List.mem_cons_self]
      rfl
    rw [List.filter_append, hproxies, List.nil_append, List.filter_cons, if_pos hkept]
    exact .cons hnode (ih htail fun n' hn' => hplain n' (List.mem_cons_of_mem _ hn'))

/-- The others differ in their ids, also from those emitted before. -/
theorem marked_of_lowerAll (h : (ofDiagram options d).lowerAll emitted nodes = .ok out)
    (hplain : ∀ n ∈ nodes, hasProxyMark n.id = false) :
    (out.filter fun m => hasProxyMark m.id).Pairwise (fun m m' => m.id ≠ m'.id) ∧
      ∀ m ∈ out, hasProxyMark m.id = true → m.id ∉ emitted := by
  induction nodes generalizing emitted out with
  | nil =>
    obtain rfl := Except.ok.inj h
    exact ⟨.nil, nofun⟩
  | cons n rest ih =>
    obtain ⟨node, tail, hnode, htail, rfl⟩ := lowerAll_cons_eq_ok.mp h
    obtain ⟨hdistinct, hfresh⟩ := ih htail fun n' hn' => hplain n' (List.mem_cons_of_mem _ hn')
    have hnode' : hasProxyMark node.id = false := by
      rw [(lowers_of_lower hnode).id, hplain n List.mem_cons_self]
    have hproxies : ((ofDiagram options d).newProxies emitted n).filter
        (fun m => hasProxyMark m.id) = (ofDiagram options d).newProxies emitted n :=
      List.filter_eq_self.mpr fun m hm => (marked_of_mem_newProxies hm).1
    refine ⟨?_, fun m hm hmark => ?_⟩
    · rw [List.filter_append, hproxies, List.filter_cons_of_neg (by simp [hnode'])]
      refine List.pairwise_append.mpr ⟨newProxies_pairwise emitted n, hdistinct,
        fun m hm m' hm' heq => ?_⟩
      -- a proxy of a later round is left out if its id was emitted in this one
      obtain ⟨hm', hmark⟩ := List.mem_filter.mp hm'
      exact hfresh m' hm' hmark (List.mem_append_right _ (heq ▸ List.mem_map_of_mem hm))
    · rcases List.mem_append.mp hm with hm | hm
      · exact (marked_of_mem_newProxies hm).2
      · rcases List.mem_cons.mp hm with rfl | hm
        · rw [hnode'] at hmark
          cases hmark
        · exact fun hmem => hfresh m hm hmark (List.mem_append_left _ hmem)

end Blueprint

/-! ## Compiled definitions -/

namespace Diagram

variable {options : CompilerOptions} {name : String} {d : Diagram} {p : ProcessDefinition}

theorem lowerAll_of_compile (hc : d.compile options name = .ok p) :
    (Blueprint.ofDiagram options d).lowerAll [] d.nodes = .ok p.nodes := by
  unfold compile at hc
  cases h : (Blueprint.ofDiagram options d).lowerAll [] d.nodes with
  | error e =>
    rw [h] at hc
    cases hc
  | ok nodes =>
    rw [h] at hc
    obtain rfl := Except.ok.inj hc
    rfl

/-- Compiling is lowering all nodes. -/
theorem exists_lowered_of_compile (hc : d.compile options name = .ok p) {n : DiagramNode}
    (hn : n ∈ d.nodes) : ∃ m ∈ p.nodes, (Blueprint.ofDiagram options d).lower n = .ok m :=
  Blueprint.exists_lowered (lowerAll_of_compile hc) hn

variable (hd : (d.nodes.map (·.id)).Nodup) (hc : d.compile options name = .ok p)

include hd hc

/-- Where ids of nodes differ, a node of the definition is a lowered node or the proxy of an edge.
Of edges whose proxies have one id only one has its proxy there. -/
theorem mem_of_compile {m : ProcessNode} (hm : m ∈ p.nodes) :
    (∃ n ∈ d.nodes, (Blueprint.ofDiagram options d).lower n = .ok m) ∨
      ∃ n ∈ d.nodes, ∃ q, d.Proxied q n.id ∧ m = proxyNode q n.id n.kind := by
  rcases Blueprint.mem_of_lowerAll hd (fun _ h => h) (lowerAll_of_compile hc) hm with
    h | ⟨n, hn, q, hq, -, rfl⟩
  · exact .inl h
  · exact .inr ⟨n, hn, q, hq, rfl⟩

theorem exists_proxy_of_compile {n : DiagramNode} (hn : n ∈ d.nodes) {q : String}
    (hq : d.Proxied q n.id) : ∃ m ∈ p.nodes, m.id = proxyId q n.id := by
  rcases Blueprint.exists_proxy hd (fun _ h => h) (lowerAll_of_compile hc) hn hq with h | h
  · cases h
  · exact h

end Diagram

namespace Diagram.Unambiguous

variable {options : CompilerOptions} {name : String} {d : Diagram} {p : ProcessDefinition}
  (hd : d.Unambiguous) (hc : d.compile options name = .ok p)

include hd hc

/-- **The nodes of a compiled definition**: the lowered nodes and one proxy for each edge that needs
one. -/
theorem mem_nodes_iff {m : ProcessNode} :
    m ∈ p.nodes ↔ (∃ n ∈ d.nodes, (Blueprint.ofDiagram options d).lower n = .ok m) ∨
      ∃ n ∈ d.nodes, ∃ q, d.Proxied q n.id ∧ m = proxyNode q n.id n.kind := by
  constructor
  · exact mem_of_compile hd.distinct hc
  · rintro (⟨n, hn, hl⟩ | ⟨n, hn, q, hq, rfl⟩)
    · obtain ⟨m', hm', hl'⟩ := exists_lowered_of_compile hc hn
      obtain rfl := Except.ok.inj (hl'.symm.trans hl)
      exact hm'
    · obtain ⟨m, hm, hid⟩ := exists_proxy_of_compile hd.distinct hc hn hq
      -- the node with the id of the proxy is this proxy and no other
      rcases mem_of_compile hd.distinct hc hm with ⟨n', hn', hl⟩ | ⟨n', hn', q', hq', rfl⟩
      · exact absurd ((Blueprint.lowers_of_lower hl).id.symm.trans hid) (hd.ne_proxyId hn' q n.id)
      · obtain ⟨rfl, hs⟩ := hd.proxyId_inj _ _ _ _ hq' hq hid
        obtain rfl := List.inj_on_of_nodup_map hd.distinct hn' hn hs
        exact hm

/-- The ids of a compiled definition differ. -/
theorem nodup_ids : (p.nodes.map (·.id)).Nodup :=
  List.pairwise_map.mpr (Blueprint.lowerAll_pairwise hd.distinct (fun _ h => h)
    (lowerAll_of_compile hc) hd.distinct hd.unmarked)

/-- The nodes that are not called like proxies are the drawn ones, in order. -/
theorem drawn_in_order :
    (p.nodes.filter fun m => !hasProxyMark m.id).map (·.id) = d.nodes.map (·.id) :=
  Blueprint.map_id_of_lowered (Blueprint.unmarked_of_lowerAll (lowerAll_of_compile hc) hd.unmarked)

end Diagram.Unambiguous

end ApprovalFlow
