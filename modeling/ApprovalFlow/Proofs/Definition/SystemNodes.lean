import ApprovalFlow.Proofs.Dispatch.Commands
import ApprovalFlow.Proofs.Topology.Compiled

/-!
# Nodes of the system

Nothing in a compiled node says where it comes from. That the system completes its tasks is read off
its approvers, and that it is a bridge between two gateways off its id and its approvers. A person
can write the system's own name among the approvers of a step, and so leaves the step to the system.
Apart from that, what is read off is what was compiled: for every diagram in which ids of nodes
differ, whatever the ids and approvers are.

- `Diagram.Synthesised`: the nodes that stand for no drawn one.
- `DiagramNode.IsLeftToSystem`: the steps of people whose only approver is the system.
- `Diagram.system_nodes`: **the system completes the bridges, the automation steps, and the steps
  that people leave to it**, and no others; the bridges are taken out of the topology and the drawn
  nodes are kept.
- `Diagram.completed_unattended`: a step of people that the system completes.
-/

namespace ApprovalFlow

/-- Is the node a step of people, with the system as its only approver? -/
def DiagramNode.IsLeftToSystem (n : DiagramNode) : Prop :=
  n.kind = .user ∧ ∃ u, n.properties = .user u ∧ u.approverIds = [systemApprover]

/-- Does the node stand on an edge, and not for a drawn node? -/
def Diagram.Synthesised (d : Diagram) (m : ProcessNode) : Prop :=
  ∃ n ∈ d.nodes, ∃ q, d.Proxied q n.id ∧ m = proxyNode q n.id n.kind

namespace Blueprint

/-- Of the lowered nodes the system completes the automation steps and what people leave to it. -/
theorem isSystemAuto_of_lower {b : Blueprint} {n : DiagramNode} {m : ProcessNode}
    (h : b.lower n = .ok m) :
    m.isSystemAuto = true ↔ n.kind = .automation ∨ n.IsLeftToSystem := by
  obtain ⟨id, kind, properties⟩ := n
  unfold lower at h
  unfold DiagramNode.IsLeftToSystem
  cases kind with
  | start | finish | condition | parallel | inclusion =>
    -- nobody approves anything at these
    obtain rfl := Except.ok.inj h
    simp [ProcessNode.isSystemAuto, base, lowerCondition, lowerGateway]
  | user =>
    dsimp only at h
    split at h
    · rename_i u
      obtain rfl := Except.ok.inj h
      show (u.approverIds == [systemApprover]) = true ↔ _
      simp
    · cases h
  | automation =>
    dsimp only at h
    split at h
    · obtain rfl := Except.ok.inj h
      exact ⟨fun _ => .inl rfl, fun _ => rfl⟩
    · cases h

end Blueprint

namespace Diagram

variable {options : CompilerOptions} {name : String} {d : Diagram} {p : ProcessDefinition}

/-- A synthesised node is a bridge that the system completes. -/
theorem Synthesised.isProxy {m : ProcessNode} (hm : d.Synthesised m) :
    m.isSystemAuto = true ∧ m.isProxy = true := by
  obtain ⟨n, -, q, -, rfl⟩ := hm
  exact ⟨rfl, isProxy_proxyNode q n.id n.kind⟩

section

variable (hd : (d.nodes.map (·.id)).Nodup) (hc : d.compile options name = .ok p)

include hd hc

/-- What the system completes. -/
theorem isSystemAuto_iff {m : ProcessNode} (hm : m ∈ p.nodes) :
    m.isSystemAuto = true ↔ d.Synthesised m ∨ ∃ n ∈ d.nodes,
      (Blueprint.ofDiagram options d).lower n = .ok m ∧
        (n.kind = .automation ∨ n.IsLeftToSystem) := by
  constructor
  · intro hauto
    rcases mem_of_compile hd hc hm with ⟨n, hn, hl⟩ | hsynthesised
    · exact .inr ⟨n, hn, hl, (Blueprint.isSystemAuto_of_lower hl).mp hauto⟩
    · exact .inl hsynthesised
  · rintro (hsynthesised | ⟨n, -, hl, hsystem⟩)
    · exact hsynthesised.isProxy.1
    · exact (Blueprint.isSystemAuto_of_lower hl).mpr hsystem

/-- A run is started for a drawn step of people just when the step starts and is left to the
system. -/
theorem spawnAutoPass_mem_compile_iff {n : DiagramNode} (hn : n ∈ d.nodes) (hkind : n.kind = .user)
    (hid : ∀ q s, d.Proxied q s → proxyId q s ≠ n.id) (event : EngineEvent) (tasks : List Task)
    (o : DispatchOptions) :
    .spawnAutoPass n.id ∈ commandsFor event (.ofParts p.table tasks) o ↔
      (∃ inst e, event = .nodeStarted inst n.id e ∧ (e = .taskNodeStart ∨ e = .automationStart)) ∧
        n.IsLeftToSystem := by
  obtain ⟨m, hfind, hl⟩ := exists_find?_lowered hd hc hn hid
  rw [spawnAutoPass_mem_iff]
  refine and_congr_right fun _ => ?_
  show (∃ m, p.table.find? n.id = some m ∧ m.isSystemAuto = true) ↔ _
  have hauto := Blueprint.isSystemAuto_of_lower hl
  constructor
  · rintro ⟨m', hfind', hm'⟩
    obtain rfl := Option.some.inj (hfind.symm.trans hfind')
    rcases hauto.mp hm' with hother | hleft
    · rw [hkind] at hother
      cases hother
    · exact hleft
  · intro hleft
    exact ⟨m, hfind, hauto.mpr (.inr hleft)⟩

end

/-- **Only nodes of the system are treated as such.** The system completes a node iff the node is
synthesised, an automation step, or a step of people with the system as its only approver. Every
synthesised node is a bridge. A drawn node is none and is kept in the topology, unless it is called
like a bridge and the system completes it. A run is started for a step of people only if the step
starts and is left to the system, unless a bridge has its id. -/
theorem system_nodes (hd : (d.nodes.map (·.id)).Nodup) (hc : d.compile options name = .ok p) :
    (∀ m ∈ p.nodes, m.isSystemAuto = true ↔ d.Synthesised m ∨ ∃ n ∈ d.nodes,
        (Blueprint.ofDiagram options d).lower n = .ok m ∧
          (n.kind = .automation ∨ n.IsLeftToSystem)) ∧
      (∀ m ∈ p.nodes, d.Synthesised m → m.isProxy = true) ∧
      (∀ n ∈ d.nodes, ∀ m ∈ p.nodes, (Blueprint.ofDiagram options d).lower n = .ok m →
        (hasProxyMark n.id = true → m.isSystemAuto = false) →
          m.isProxy = false ∧ (Topology.ofNodes p.nodes).successors.contains n.id = true) ∧
      ∀ n ∈ d.nodes, n.kind = .user → (∀ q s, d.Proxied q s → proxyId q s ≠ n.id) →
        ∀ event tasks o, .spawnAutoPass n.id ∈ commandsFor event (.ofParts p.table tasks) o ↔
          (∃ inst e, event = .nodeStarted inst n.id e ∧
            (e = .taskNodeStart ∨ e = .automationStart)) ∧ n.IsLeftToSystem := by
  refine ⟨fun m hm => isSystemAuto_iff hd hc hm, fun m _ hm => hm.isProxy.2,
    fun n hn m hm hl hplain => ?_, fun n hn hkind hid event tasks o =>
      spawnAutoPass_mem_compile_iff hd hc hn hkind hid event tasks o⟩
  have hid := (Blueprint.lowers_of_lower hl).id
  have hproxy : m.isProxy = false := by
    unfold ProcessNode.isProxy
    rw [hid]
    cases hmark : hasProxyMark n.id with
    | false => rfl
    | true => rw [hplain hmark, Bool.and_false]
  exact ⟨hproxy, Topology.contains_ofNodes_iff.mpr ⟨m, hm, hproxy, .inl hid⟩⟩

/-- A choice in front of two things at once: a desk with the name of a bridge, where a person works,
and an automation step. -/
def staffed : Diagram where
  nodes := [⟨"S", .start, .start ""⟩, ⟨"C", .condition, .condition ""⟩,
    ⟨"P", .parallel, .gateway ""⟩, ⟨"proxy_desk", .user, .user { approverIds := ["ann"] }⟩,
    ⟨"A", .automation, .automation {}⟩, ⟨"J", .parallel, .gateway ""⟩]
  edges := [⟨"e1", "S", "C", {}⟩, ⟨"e2", "C", "P", {}⟩, ⟨"e3", "P", "proxy_desk", {}⟩,
    ⟨"e4", "P", "A", {}⟩, ⟨"e5", "proxy_desk", "J", {}⟩, ⟨"e6", "A", "J", {}⟩]

/-- The desk is kept, and its tasks wait for the person. -/
theorem system_nodes_staffed :
    ∃ p, staffed.compile {} "staffed" = .ok p ∧
      (Topology.ofNodes p.nodes).successors.contains "proxy_desk" = true ∧
      ∀ event tasks o, .spawnAutoPass "proxy_desk" ∉ commandsFor event (.ofParts p.table tasks) o := by
  have hd : (staffed.nodes.map (·.id)).Nodup := by decide
  obtain ⟨p, hp⟩ : ∃ p, staffed.compile {} "staffed" = .ok p := ⟨_, rfl⟩
  obtain ⟨-, -, hkept, hstarted⟩ := system_nodes hd hp
  have hdesk : ⟨"proxy_desk", .user, .user { approverIds := ["ann"] }⟩ ∈ staffed.nodes := by decide
  have hattended : ¬ DiagramNode.IsLeftToSystem
      ⟨"proxy_desk", .user, .user { approverIds := ["ann"] }⟩ := by
    rintro ⟨-, u, hu, happrovers⟩
    cases hu
    exact absurd happrovers (by decide)
  refine ⟨p, hp, ?_, ?_⟩
  · obtain ⟨m, hm, hl⟩ := exists_lowered_of_compile hp hdesk
    refine (hkept _ hdesk m hm hl fun _ => ?_).2
    rw [Bool.eq_false_iff, Ne, Blueprint.isSystemAuto_of_lower hl]
    rintro (hkind | hleft)
    · cases hkind
    · exact hattended hleft
  · intro event tasks o hmem
    have hunused : ∀ e ∈ staffed.edges, proxyId e.source e.target ≠ "proxy_desk" := by decide
    have hid : ∀ q s, staffed.Proxied q s → proxyId q s ≠ "proxy_desk" := by
      rintro q s ⟨⟨⟨e, he, rfl, rfl⟩, -⟩, -⟩
      exact hunused e he
    exact hattended ((hstarted _ hdesk rfl hid event tasks o).mp hmem).2

/-- A step whose only approver has the name of the system. -/
def unattended : Diagram where
  nodes := [⟨"S", .start, .start ""⟩, ⟨"U", .user, .user { approverIds := ["sys_auto"] }⟩,
    ⟨"E", .finish, .finish ""⟩]
  edges := [⟨"e1", "S", "U", {}⟩, ⟨"e2", "U", "E", {}⟩]

/-- That nothing but bridges and automation steps is left to the system would not hold: a step of
people can be. -/
theorem completed_unattended :
    ¬ ∀ (d : Diagram) (options : CompilerOptions) (name : String) (p : ProcessDefinition),
      (d.nodes.map (·.id)).Nodup → d.compile options name = .ok p →
        (∀ m ∈ p.nodes, (m.isProxy = true ↔ d.Synthesised m) ∧
          (m.isSystemAuto = true ↔ d.Synthesised m ∨ ∃ n ∈ d.nodes,
            (Blueprint.ofDiagram options d).lower n = .ok m ∧ n.kind = .automation)) ∧
        (∀ n ∈ d.nodes, (Topology.ofNodes p.nodes).successors.contains n.id = true) ∧
        ∀ n ∈ d.nodes, n.kind = .user → ∀ event tasks o,
          .spawnAutoPass n.id ∉ commandsFor event (.ofParts p.table tasks) o := by
  intro h
  have hd : (unattended.nodes.map (·.id)).Nodup := by decide
  have hstep : ⟨"U", .user, .user { approverIds := ["sys_auto"] }⟩ ∈ unattended.nodes := by decide
  obtain ⟨p, hp, hmem⟩ : ∃ p, unattended.compile {} "unattended" = .ok p ∧
      .spawnAutoPass "U" ∈ commandsFor (.nodeStarted "inst-1" "U" .taskNodeStart)
        (.ofParts p.table []) {} := ⟨_, rfl, by decide⟩
  obtain ⟨-, -, hnever⟩ := h unattended {} "unattended" p hd hp
  exact hnever _ hstep rfl _ [] {} hmem

end Diagram

end ApprovalFlow
