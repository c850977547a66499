import ApprovalFlow.Proofs.Definition.Compile
import ApprovalFlow.Proofs.Settings.Checked
import Mathlib.Data.List.Forall2

/-!
# Branches of a condition

Two scans of the edges leave repetitions out: one fills the adjacency, the other collects the branches
of a condition. They take the same edges, so a condition has one branch for each of its successors, in
the same order, and the edge that a branch comes from is the first one between the two nodes. None of
this needs ids to differ or edges to end at nodes.

- `Blueprint.find?_of_mem_firstPerTarget`: an edge that the scan keeps is the first one to its target.
- `Diagram.Branch`, `Diagram.Routes`: what the branch for a successor is, and what a condition is
  lowered to.
- `Blueprint.routes_lowerCondition`: **every condition has the branches of its successors.**
- `Blueprint.exists_drawn`: the lowered nodes stand in a definition in order, among proxies.
- `Diagram.nonBlank_of_compile`: with a default expression that says something, so does every
  expression of a definition.
- `Diagram.branches_by_adjacency`: both, for every definition and all settings that are accepted.
-/

namespace ApprovalFlow

/-! ## What a branch is -/

namespace Diagram

/-- Is this the branch of the condition for the successor? A gateway that joins branches is entered by
its proxy, and the expression is that of the first edge, if it says anything. -/
structure Branch (d : Diagram) (standard : String) (n : DiagramNode) (s : String)
    (c : GatewayCondition) : Prop where
  target : c.target = if (d.kindOf? s).any NodeKind.isConcurrent then proxyId n.id s else s
  expression : ∃ e, d.edges.find? (fun e => e.source == n.id && e.target == s) = some e ∧
    (Text.NonBlank e.properties.expression ∧ c.expression = e.properties.expression ∨
      ¬ Text.NonBlank e.properties.expression ∧ c.expression = standard)

/-- Is this what the condition is lowered to? It has a branch for each successor, in their order, and
routes nowhere else. -/
structure Routes (d : Diagram) (standard : String) (n : DiagramNode) (m : ProcessNode) : Prop where
  id : m.id = n.id
  gateway : ∃ g, m.gateway = some g ∧ g.joinPolicy = .chainedCondition ∧
    g.mandatorySuccessors = [] ∧
    List.Forall₂ (d.Branch standard n) ((Adjacency.ofDiagram d).successors n.id) g.conditions

end Diagram

namespace Blueprint

variable {options : CompilerOptions} {d : Diagram} {n : DiagramNode} {e : DiagramEdge}
  {edges : List DiagramEdge} {seen : List String}

/-! ## The scan -/

/-- An edge that the scan keeps is the first one to its target, which was not seen before. -/
theorem find?_of_mem_firstPerTarget (he : e ∈ firstPerTarget seen edges) :
    e.target ∉ seen ∧ edges.find? (fun x => x.target == e.target) = some e := by
  induction edges generalizing seen with
  | nil => cases he
  | cons x rest ih =>
    rw [firstPerTarget] at he
    by_cases hx : x.target ∈ seen
    · rw [if_pos (List.contains_iff_mem.mpr hx)] at he
      obtain ⟨hnew, hfirst⟩ := ih he
      have hne : x.target ≠ e.target := fun h => hnew (h ▸ hx)
      exact ⟨hnew, by rw [List.find?_cons_of_neg (by simp [hne]), hfirst]⟩
    · rw [if_neg (fun h => hx (List.contains_iff_mem.mp h))] at he
      rcases List.mem_cons.mp he with rfl | he
      · exact ⟨hx, List.find?_cons_of_pos (beq_self_eq_true _)⟩
      · -- what was kept just now counts as seen
        obtain ⟨hnew, hfirst⟩ := ih he
        rw [List.mem_cons, not_or] at hnew
        exact ⟨hnew.2, by rw [List.find?_cons_of_neg (by simp [Ne.symm hnew.1]), hfirst]⟩

/-- So a branch edge is the first edge of the diagram between its ends. -/
theorem find?_of_mem_branchEdges {id : String} (he : e ∈ d.branchEdges id) :
    d.edges.find? (fun x => x.source == id && x.target == e.target) = some e := by
  obtain ⟨-, hfirst⟩ := find?_of_mem_firstPerTarget he
  have hmem := List.mem_of_find?_eq_some hfirst
  obtain ⟨hlinking, hsource⟩ := List.mem_filter.mp hmem
  obtain ⟨-, hends⟩ := List.mem_filter.mp hlinking
  rw [Bool.and_eq_true] at hends
  rw [← hfirst]
  unfold Diagram.linkingEdges
  rw [List.find?_filter, List.find?_filter]
  refine List.find?_congr fun x _ => ?_
  -- an edge with these ends is between nodes, since this one is
  by_cases hx : x.source = id ∧ x.target = e.target
  · have hid : e.source = id := of_decide_eq_true hsource
    rw [hx.1, hx.2, ← hid, hends.1, hends.2]
    simp
  · by_cases hs : x.source = id
    · have ht : x.target ≠ e.target := fun h => hx ⟨hs, h⟩
      simp [ht]
    · simp [hs]

/-! ## One condition -/

/-- A condition routes to a gateway that joins branches by a proxy, and to any other node itself. -/
theorem successorId_condition (hk : n.kind = .condition) (s : String) :
    (ofDiagram options d).successorId n s =
      if (d.kindOf? s).any NodeKind.isConcurrent then proxyId n.id s else s := by
  unfold successorId ofDiagram needsProxy
  rw [Adjacency.kind?_ofDiagram, hk]
  cases d.kindOf? s <;> rfl

/-- **Every condition has the branches of its successors**, in a diagram where anything may repeat. -/
theorem routes_lowerCondition (hn : n ∈ d.nodes) (hk : n.kind = .condition) :
    d.Routes options.defaultExpression n ((ofDiagram options d).lowerCondition n) := by
  refine ⟨rfl, _, rfl, rfl, rfl, ?_⟩
  show List.Forall₂ _ _ ((ofDiagram options d).branches n)
  rw [branches_eq hn, successors_eq, List.forall₂_map_left_iff, List.forall₂_map_right_iff,
    List.forall₂_same]
  intro e he
  refine ⟨successorId_condition hk e.target, e, find?_of_mem_branchEdges he, ?_⟩
  by_cases hblank : Text.isAllBlank e.properties.expression = true
  · exact .inr ⟨Text.not_nonBlank_iff.mpr hblank, if_pos hblank⟩
  · exact .inl ⟨Text.isAllBlank_eq_false_iff.mp (Bool.eq_false_iff.mpr hblank), if_neg hblank⟩

/-- A condition is always lowered. -/
theorem lower_condition (b : Blueprint) (hk : n.kind = .condition) :
    b.lower n = .ok (b.lowerCondition n) := by
  unfold lower
  rw [hk]

/-- Only conditions have branches with expressions. -/
theorem conditions_of_lower {b : Blueprint} {m : ProcessNode} {g : GatewayConfig}
    (h : b.lower n = .ok m) (hg : m.gateway = some g) :
    n.kind = .condition ∧ m = b.lowerCondition n ∨ g.conditions = [] := by
  cases hk : n.kind with
  | condition => exact .inl ⟨rfl, Except.ok.inj (h.symm.trans (lower_condition b hk))⟩
  | parallel | inclusion =>
    unfold lower at h
    rw [hk] at h
    obtain rfl := Except.ok.inj h
    obtain rfl := Option.some.inj hg
    exact .inr rfl
  | start | finish | user | automation =>
    -- without a policy there is no gateway
    have hpolicy := (lowers_of_lower h).joinPolicy
    rw [hk] at hpolicy
    unfold ProcessNode.joinPolicy? at hpolicy
    rw [hg] at hpolicy
    cases hpolicy

/-! ## A whole definition -/

variable {b : Blueprint} {nodes : List DiagramNode} {emitted : List String} {out : List ProcessNode}

/-- The lowered nodes stand in order, and among them are nodes that route nowhere. -/
theorem exists_drawn (h : b.lowerAll emitted nodes = .ok out) :
    ∃ lowered proxies, Interleaves lowered proxies out ∧
      List.Forall₂ (fun n m => b.lower n = .ok m) nodes lowered ∧
      ∀ m ∈ proxies, m.gateway = none := by
  induction nodes generalizing emitted out with
  | nil =>
    obtain rfl := Except.ok.inj h
    exact ⟨[], [], .nil, .nil, nofun⟩
  | cons n rest ih =>
    obtain ⟨node, tail, hnode, htail, rfl⟩ := lowerAll_cons_eq_ok.mp h
    obtain ⟨lowered, proxies, hinterleaves, hlowered, hproxies⟩ := ih htail
    refine ⟨node :: lowered, b.newProxies emitted n ++ proxies, hinterleaves.left.append_right _,
      .cons hnode hlowered, fun m hm => ?_⟩
    rcases List.mem_append.mp hm with hm | hm
    · obtain ⟨q, rfl, -⟩ := exists_of_mem_newProxies hm
      rfl
    · exact hproxies m hm

/-- With a default expression that says something, so does every expression. -/
theorem nonBlank_of_lower {m : ProcessNode} {g : GatewayConfig} {c : GatewayCondition}
    (hstandard : Text.NonBlank options.defaultExpression) (hn : n ∈ d.nodes)
    (h : (ofDiagram options d).lower n = .ok m) (hg : m.gateway = some g) (hc : c ∈ g.conditions) :
    Text.NonBlank c.expression := by
  rcases conditions_of_lower h hg with ⟨hk, rfl⟩ | hnil
  · obtain ⟨-, g', hg', -, -, hbranches⟩ :
        d.Routes options.defaultExpression n ((ofDiagram options d).lowerCondition n) :=
      routes_lowerCondition hn hk
    obtain rfl := Option.some.inj (hg.symm.trans hg')
    obtain ⟨s, -, hbranch⟩ := exists_left_of_forall₂ hbranches hc
    obtain ⟨e, -, ⟨hspeaks, hexpression⟩ | ⟨-, hexpression⟩⟩ := hbranch.expression
    · exact hexpression ▸ hspeaks
    · exact hexpression ▸ hstandard
  · rw [hnil] at hc
    cases hc

end Blueprint

/-! ## Compiled definitions -/

namespace Diagram

variable {options : CompilerOptions} {name : String} {d : Diagram} {p : ProcessDefinition}

/-- With a default expression that says something, so does every expression of a definition. -/
theorem nonBlank_of_compile (hstandard : Text.NonBlank options.defaultExpression)
    (hc : d.compile options name = .ok p) :
    ∀ m ∈ p.nodes, ∀ g, m.gateway = some g → ∀ c ∈ g.conditions, Text.NonBlank c.expression := by
  intro m hm g hg c hcond
  obtain ⟨lowered, proxies, hinterleaves, hlowered, hproxies⟩ :=
    Blueprint.exists_drawn (lowerAll_of_compile hc)
  rcases List.mem_append.mp (hinterleaves.perm.mem_iff.mp hm) with hm | hm
  · obtain ⟨n, hn, hl⟩ := exists_left_of_forall₂ hlowered hm
    exact Blueprint.nonBlank_of_lower hstandard hn hl hg hcond
  · rw [hproxies m hm] at hg
    cases hg

/-- **The branches of a condition follow the adjacency, and none is without an expression.** Every
condition is lowered to one branch for each of its successors, in their order, with the expression of
the first edge to it, or the default expression if that says nothing. The lowered nodes stand in a
definition in the order of the diagram, among proxies that route nowhere. Under settings that are
accepted, every expression of every definition says something. -/
theorem branches_by_adjacency :
    (∀ (options : CompilerOptions) (d : Diagram), ∀ n ∈ d.nodes, n.kind = .condition →
      ∃ m, (Blueprint.ofDiagram options d).lower n = .ok m ∧
        d.Routes options.defaultExpression n m) ∧
      (∀ (options : CompilerOptions) (d : Diagram) name p, d.compile options name = .ok p →
        ∃ lowered proxies, Interleaves lowered proxies p.nodes ∧
          List.Forall₂ (fun n m => (Blueprint.ofDiagram options d).lower n = .ok m) d.nodes lowered ∧
          ∀ m ∈ proxies, m.gateway = none) ∧
      ∀ (w : WrittenSettings) s, Settings.ofWritten w = .ok s →
        ∀ (d : Diagram) name p, d.compile s.compiler name = .ok p →
          ∀ m ∈ p.nodes, ∀ g, m.gateway = some g → ∀ c ∈ g.conditions,
            Text.NonBlank c.expression := by
  refine ⟨fun options d n hn hk => ?_, fun options d name p hc => ?_, fun w s hs d name p hc => ?_⟩
  · exact ⟨_, Blueprint.lower_condition _ hk, Blueprint.routes_lowerCondition hn hk⟩
  · exact Blueprint.exists_drawn (lowerAll_of_compile hc)
  · obtain ⟨hkeeps, hdenotes⟩ := Settings.ofWritten_eq_ok_iff.mp hs
    have hwritten : Text.NonBlank w.compiler.defaultExpression := hkeeps .expression
    refine nonBlank_of_compile ?_ hc
    rw [Settings.defaultExpression_of_denotes hdenotes]
    exact Text.nonBlank_trim hwritten

/-- A condition that is drawn twice, with an edge to nowhere and two edges to each of two nodes; of one
pair the first says nothing, of the other the second. -/
def forked : Diagram where
  nodes := [⟨"C", .condition, .condition ""⟩, ⟨"P", .parallel, .gateway ""⟩, ⟨"E", .finish, .finish ""⟩,
    ⟨"C", .condition, .condition "again"⟩]
  edges := [⟨"e1", "C", "E", { expression := " " }⟩, ⟨"e2", "C", "nowhere", { expression := "y" }⟩,
    ⟨"e3", "C", "P", { expression := " x > 1" }⟩, ⟨"e4", "C", "E", { expression := "z" }⟩,
    ⟨"e5", "C", "P", {}⟩]

theorem branches_by_adjacency_forked :
    let n : DiagramNode := ⟨"C", .condition, .condition "again"⟩
    ∃ s m p, Settings.ofWritten { compiler := { defaultExpression := " true " } } = .ok s ∧
      (Blueprint.ofDiagram s.compiler forked).lower n = .ok m ∧ forked.Routes "true" n m ∧
      (m.gateway.map fun g => g.conditions) = some [⟨"true", "E"⟩, ⟨" x > 1", "proxy_C_P"⟩] ∧
      forked.compile s.compiler "forked" = .ok p ∧
      (∃ lowered proxies, Interleaves lowered proxies p.nodes ∧
        ∀ m ∈ proxies, m.gateway = none) ∧
      ∀ m ∈ p.nodes, ∀ g, m.gateway = some g → ∀ c ∈ g.conditions,
        Text.NonBlank c.expression := by
  intro n
  obtain ⟨hroutes, hdrawn, hspeaks⟩ := branches_by_adjacency
  obtain ⟨s, hs, hexpression⟩ : ∃ s,
      Settings.ofWritten { compiler := { defaultExpression := " true " } } = .ok s ∧
        s.compiler = ⟨"true", .standard⟩ := ⟨_, rfl, rfl⟩
  obtain ⟨p, hc⟩ : ∃ p, forked.compile ⟨"true", .standard⟩ "forked" = .ok p := ⟨_, rfl⟩
  obtain ⟨m, hm, hm'⟩ := hroutes ⟨"true", .standard⟩ forked n (by decide) rfl
  have hgateway : (m.gateway.map fun g => g.conditions) =
      some [⟨"true", "E"⟩, ⟨" x > 1", "proxy_C_P"⟩] := by
    obtain rfl := Except.ok.inj hm
    rfl
  obtain ⟨lowered, proxies, hinterleaves, -, hproxies⟩ := hdrawn _ _ _ _ hc
  rw [← hexpression] at hm hc
  exact ⟨s, m, p, hs, hm, hm', hgateway, hc, ⟨lowered, proxies, hinterleaves, hproxies⟩,
    hspeaks _ _ hs _ _ _ hc⟩

end Diagram

end ApprovalFlow
