import ApprovalFlow.Proofs.Definition.Compile
import ApprovalFlow.Proofs.Definition.Decoded
import ApprovalFlow.Proofs.Definition.Table

/-!
# Diagrams that repeat an id

Nothing stops a diagram from drawing two nodes with one id. The adjacency keeps the first of them.
The compilation goes through the list of nodes and lowers each, the later ones too, by their own
kinds and between the neighbours of the first. Of what is emitted under the id, a search through the
definition finds the first, and the table by which events are decided the last.

- `Diagram.KeepsFirst`: what it would be to keep the first node of every id.
- `Diagram.KeepsAll`: what is kept instead.
- `Blueprint.find?_lowered`, `Blueprint.find?_lowered_reverse`: **looking for an id among lowered
  nodes is looking for it among the drawn ones**, from either end.
- `Diagram.repeated_ids`: **the first node of every id is kept just where no id repeats; otherwise
  all are**, and look-ups of a repeated id take the first or the last.
- `Diagram.two_under_one_id`: a diagram that was read and is not compiled from the first nodes of
  its ids.
-/

namespace ApprovalFlow

namespace Diagram

/-- Is the first node of every id kept, and no other? -/
structure KeepsFirst (d : Diagram) (options : CompilerOptions) (p : ProcessDefinition) : Prop where
  distinct : (p.nodes.map (·.id)).Nodup
  first : ∀ id n, d.node? id = some n →
    (∃ m ∈ p.nodes, m.id = id) ∧
      ∀ m ∈ p.nodes, m.id = id → (Blueprint.ofDiagram options d).lower n = .ok m
  /-- Both ways of looking for a node find the same. -/
  agree : ∀ id, p.node? id = p.table.find? id

/-- Is every node kept, under whatever id? -/
structure KeepsAll (d : Diagram) (options : CompilerOptions) (p : ProcessDefinition) : Prop where
  /-- Beside the proxies there are all drawn nodes, lowered in order. -/
  all : List.Forall₂ (fun n m => (Blueprint.ofDiagram options d).lower n = .ok m) d.nodes
    (p.nodes.filter fun m => !hasProxyMark m.id)
  /-- A search finds the first node of an id. -/
  first : ∀ id n, d.node? id = some n →
    ∃ m, p.node? id = some m ∧ (Blueprint.ofDiagram options d).lower n = .ok m
  /-- The table holds the last. -/
  last : ∀ id n, d.nodes.reverse.find? (fun n => n.id == id) = some n →
    ∃ m, p.table.find? id = some m ∧ (Blueprint.ofDiagram options d).lower n = .ok m
  /-- Under other ids both find the same. -/
  agree : ∀ id, (∀ n ∈ d.nodes, n.id ≠ id) → p.node? id = p.table.find? id

end Diagram

/-! ## Looking for an id -/

namespace Blueprint

variable {b : Blueprint} {nodes : List DiagramNode} {lowered : List ProcessNode} {id : String}
  {n : DiagramNode}

/-- Looking for an id among lowered nodes is looking for it among the drawn ones. -/
theorem find?_lowered (h : List.Forall₂ (fun n m => b.lower n = .ok m) nodes lowered)
    (hn : nodes.find? (fun n => n.id == id) = some n) :
    ∃ m, lowered.find? (fun m => m.id == id) = some m ∧ b.lower n = .ok m := by
  induction h with
  | nil => cases hn
  | @cons n' m' _ _ hlower _ ih =>
    have hid : m'.id = n'.id := (lowers_of_lower hlower).id
    rw [List.find?_cons] at hn ⊢
    rw [hid]
    cases hmatch : n'.id == id with
    | true =>
      rw [hmatch] at hn
      obtain rfl := Option.some.inj hn
      exact ⟨m', rfl, hlower⟩
    | false =>
      rw [hmatch] at hn
      exact ih hn

/-- So it is from the other end. -/
theorem find?_lowered_reverse (h : List.Forall₂ (fun n m => b.lower n = .ok m) nodes lowered)
    (hn : nodes.reverse.find? (fun n => n.id == id) = some n) :
    ∃ m, lowered.reverse.find? (fun m => m.id == id) = some m ∧ b.lower n = .ok m :=
  find?_lowered (List.forall₂_reverse_iff.mpr h) hn

/-- For an id that is not called like a proxy only nodes that are not either are looked at. -/
theorem find?_unmarked (hid : hasProxyMark id = false) (l : List ProcessNode) :
    (l.filter fun m => !hasProxyMark m.id).find? (fun m => m.id == id) =
      l.find? fun m => m.id == id := by
  rw [List.find?_filter]
  congr 1
  funext m
  by_cases h : m.id = id
  · simp [h, hid]
  · simp [h]

end Blueprint

/-! ## What is compiled -/

namespace Diagram

variable {options : CompilerOptions} {name : String} {d : Diagram} {p : ProcessDefinition}

section

variable (hplain : ∀ n ∈ d.nodes, hasProxyMark n.id = false) (hc : d.compile options name = .ok p)

include hplain hc

/-- Under an id that is not drawn there is one node at most. -/
theorem eq_of_not_drawn {id : String} (hid : ∀ n ∈ d.nodes, n.id ≠ id) {m m' : ProcessNode}
    (hm : m ∈ p.nodes) (hm' : m' ∈ p.nodes) (hmid : m.id = id) (hmid' : m'.id = id) : m = m' := by
  have hlower := lowerAll_of_compile hc
  have hids := Blueprint.map_id_of_lowered (Blueprint.unmarked_of_lowerAll hlower hplain)
  have hmarked : ∀ x ∈ p.nodes, x.id = id → x ∈ p.nodes.filter fun x => hasProxyMark x.id := by
    intro x hx hxid
    refine List.mem_filter.mpr ⟨hx, ?_⟩
    by_contra hnot
    -- otherwise the node is a lowered one, and its id is drawn
    have hkept : x ∈ p.nodes.filter fun x => !hasProxyMark x.id :=
      List.mem_filter.mpr ⟨hx, by simpa using hnot⟩
    obtain ⟨n, hn, heq⟩ := List.mem_map.mp (hids ▸ List.mem_map_of_mem hkept)
    exact hid n hn (heq.trans hxid)
  have hdistinct : ((p.nodes.filter fun x => hasProxyMark x.id).map (·.id)).Nodup :=
    List.pairwise_map.mpr (Blueprint.marked_of_lowerAll hlower hplain).1
  exact List.inj_on_of_nodup_map hdistinct (hmarked m hm hmid) (hmarked m' hm' hmid')
    (hmid.trans hmid'.symm)

theorem keepsAll : d.KeepsAll options p := by
  have hall := Blueprint.unmarked_of_lowerAll (lowerAll_of_compile hc) hplain
  constructor
  case all => exact hall
  case first =>
    intro id n hn
    have hmem : n ∈ d.nodes := List.mem_of_find?_eq_some hn
    obtain rfl : n.id = id := by simpa using List.find?_some hn
    obtain ⟨m, hm, hl⟩ := Blueprint.find?_lowered hall hn
    rw [Blueprint.find?_unmarked (hplain n hmem)] at hm
    exact ⟨m, hm, hl⟩
  case last =>
    intro id n hn
    have hmem : n ∈ d.nodes := List.mem_reverse.mp (List.mem_of_find?_eq_some hn)
    obtain rfl : n.id = id := by simpa using List.find?_some hn
    obtain ⟨m, hm, hl⟩ := Blueprint.find?_lowered_reverse hall hn
    rw [← List.filter_reverse, Blueprint.find?_unmarked (hplain n hmem),
      ← NodeTable.find?_ofList] at hm
    exact ⟨m, hm, hl⟩
  case agree =>
    intro id hid
    exact (NodeTable.find?_ofList_eq_find? fun m hm m' hm' hmid hmid' =>
      eq_of_not_drawn hplain hc hid hm hm' hmid hmid').symm

theorem keepsFirst_iff : d.KeepsFirst options p ↔ (d.nodes.map (·.id)).Nodup := by
  have hlower := lowerAll_of_compile hc
  constructor
  · intro hkeeps
    -- the drawn ids are some of the compiled ones
    have hids := Blueprint.map_id_of_lowered (Blueprint.unmarked_of_lowerAll hlower hplain)
    rw [← hids]
    exact hkeeps.distinct.sublist ((List.filter_sublist).map _)
  · intro hd
    have hdistinct : (p.nodes.map (·.id)).Nodup := List.pairwise_map.mpr
      (Blueprint.lowerAll_pairwise hd (fun _ h => h) hlower hd hplain)
    constructor
    case distinct => exact hdistinct
    case first =>
      intro id n hn
      obtain ⟨m, hm, hl⟩ := (keepsAll hplain hc).first id n hn
      have hmem : m ∈ p.nodes := List.mem_of_find?_eq_some hm
      have hmid : m.id = id := by simpa using List.find?_some hm
      refine ⟨⟨m, hmem, hmid⟩, fun m' hm' hid' => ?_⟩
      rw [List.inj_on_of_nodup_map hdistinct hm' hmem (hid'.trans hmid.symm)]
      exact hl
    case agree =>
      intro id
      exact (NodeTable.find?_ofList_eq_find? fun m hm m' hm' hmid hmid' =>
        List.inj_on_of_nodup_map hdistinct hm hm' (hmid.trans hmid'.symm)).symm

end

/-- **The first node of every id is kept just where no id repeats, and otherwise all nodes are.** The
diagram needs properties of the right kinds, which it has if it was read, and no node that is called
like a proxy. Under a repeated id every occurrence is compiled, a search finds the first and the
table holds the last. -/
theorem repeated_ids (hplain : ∀ n ∈ d.nodes, hasProxyMark n.id = false)
    (hfits : ∀ n ∈ d.nodes, n.properties.Fits n.kind) (options : CompilerOptions) (name : String) :
    ∃ p, d.compile options name = .ok p ∧
      (d.KeepsFirst options p ↔ (d.nodes.map (·.id)).Nodup) ∧ d.KeepsAll options p := by
  obtain ⟨p, hc⟩ := exists_compile hfits options name
  exact ⟨p, hc, keepsFirst_iff hplain hc, keepsAll hplain hc⟩

/-- A step and the end are drawn under one id. -/
def doubled : Diagram where
  nodes := [⟨"S", .start, .start ""⟩, ⟨"U", .user, .user { approverIds := ["ann"] }⟩,
    ⟨"U", .finish, .finish ""⟩]
  edges := [⟨"e1", "S", "U", {}⟩]

/-- Both are compiled. -/
theorem repeated_ids_doubled :
    ∃ p, doubled.compile {} "doubled" = .ok p ∧ ¬ doubled.KeepsFirst {} p ∧
      doubled.KeepsAll {} p := by
  have hplain : ∀ n ∈ doubled.nodes, hasProxyMark n.id = false := by decide
  have hfits : ∀ n ∈ doubled.nodes, n.properties.Fits n.kind := by
    simp [doubled, NodeProperties.Fits]
  obtain ⟨p, hp, hfirst, hall⟩ := repeated_ids hplain hfits {} "doubled"
  have hrepeats : ¬ (doubled.nodes.map (·.id)).Nodup := by decide
  exact ⟨p, hp, mt hfirst.mp hrepeats, hall⟩

/-- That only the first node of an id is kept does not hold of every diagram that was read. -/
theorem two_under_one_id :
    ¬ ∀ (policy : UnknownNodePolicy) (j : Json) (d : Diagram), ofJson policy j = .ok d →
      (∀ n ∈ d.nodes, hasProxyMark n.id = false) →
      (∀ p s p' s', d.Proxied p s → d.Proxied p' s' → proxyId p s = proxyId p' s' →
        p = p' ∧ s = s') →
      ∀ options name p, d.compile options name = .ok p → d.KeepsFirst options p := by
  intro h
  have hread : ofJson .reject (.object
      [("nodes", .array [
          .object [("id", .text "S"), ("type", .text "start")],
          .object [("id", .text "U"), ("type", .text "user"),
            ("properties", .object [("approvedUserIds", .array [.text "ann"])])],
          .object [("id", .text "U"), ("type", .text "end")]]),
        ("edges", .array [
          .object [("id", .text "e1"), ("sourceNodeId", .text "S"),
            ("targetNodeId", .text "U")]])]) = .ok doubled := by with_unfolding_all rfl
  have hplain : ∀ n ∈ doubled.nodes, hasProxyMark n.id = false := by decide
  have hproxies : ∀ p s p' s', doubled.Proxied p s → doubled.Proxied p' s' →
      proxyId p s = proxyId p' s' → p = p' ∧ s = s' := by
    -- the only edge needs no proxy
    have hnone : ∀ e ∈ doubled.edges, ¬ doubled.Proxied e.source e.target := by decide
    intro p s p' s' hps
    obtain ⟨e, he, rfl, rfl⟩ := hps.1.1
    exact absurd hps (hnone e he)
  obtain ⟨p, hp, hids⟩ : ∃ p, doubled.compile {} "doubled" = .ok p ∧
      p.nodes.map (·.id) = ["S", "U", "U"] := ⟨_, rfl, rfl⟩
  have hdistinct := (h .reject _ doubled hread hplain hproxies {} "doubled" p hp).distinct
  rw [hids] at hdistinct
  exact absurd hdistinct (by decide)

end Diagram

end ApprovalFlow
