import ApprovalFlow.Proofs.Definition.Cleanup

/-!
# Completion events and the gateways they are about

Whether a step hears that one of its tasks finished is decided when the diagram is compiled: a drawn
step looks at the ends of its edges, a proxy at the kind of the gateway behind it. Which gateways are
told is decided when the task has finished: the dispatcher goes through the compiled nodes and asks
each for its predecessors and its policy. A step that hears for nothing would fire an event that
closes no branch, and a gateway whose step does not hear would wait forever.

- `Diagram.Feeds`: what stands right in front of a node, with the proxies on its edges.
- `Diagram.Unambiguous.mem_joinsAfter_iff_feeds`: the dispatcher finds the gateways that a step
  feeds.
- `Diagram.Unambiguous.subscribes_iff_feeds`: a step subscribes to the completion event of just
  these.
- `Diagram.completions_found`: **an approval step subscribes to the completion event of a kind of
  gateway iff the dispatcher finds a gateway for it, and what it finds are the gateways of that kind
  that the step feeds.**
-/

namespace ApprovalFlow

/-- A gateway that completion events are about joins several branches. -/
theorem NodeKind.isConcurrent_of_joinPolicy? {kind : NodeKind} {policy : JoinPolicy} {e : EventName}
    (he : e.joinPolicy? = some policy) (h : kind.joinPolicy? = some policy) :
    kind.isConcurrent = true := by
  cases e with
  | taskParallelPass =>
    obtain rfl := Option.some.inj he
    obtain rfl : kind = .parallel := NodeKind.joinPolicy?_inj h rfl
    rfl
  | taskInclusionPass =>
    obtain rfl := Option.some.inj he
    obtain rfl : kind = .inclusion := NodeKind.joinPolicy?_inj h rfl
    rfl
  | _ => cases he

namespace Diagram

/-- Does the node with the first id stand right in front of the second one? A drawn node does where
an edge is drawn, and a proxy does at the end of its edge. -/
def Feeds (d : Diagram) (id target : String) : Prop :=
  d.HasEdge id target ∨ ∃ q, d.Proxied q target ∧ id = proxyId q target

/-- Does what a step hears fit what the dispatcher looks for, for gateways of one kind? -/
structure FindsGateways (d : Diagram) (s : Snapshot) (m : ProcessNode) (e : EventName)
    (policy : JoinPolicy) (kind : NodeKind) : Prop where
  told : m.subscribesTo e = true ↔ s.joinsAfter m.id (some policy) ≠ []
  exact : ∀ x, x ∈ s.joinsAfter m.id (some policy) ↔
    ∃ n ∈ d.nodes, n.id = x ∧ n.kind = kind ∧ d.Feeds m.id x
  ascending : (s.joinsAfter m.id (some policy)).Pairwise (· < ·)

variable {options : CompilerOptions} {name : String} {d : Diagram} {p : ProcessDefinition}

namespace Unambiguous

variable (hd : d.Unambiguous) (hc : d.compile options name = .ok p) {m : ProcessNode}
  (hm : m ∈ p.nodes)

include hd hc hm

/-- What an approval step feeds lists it. -/
theorem lists_of_feeds (happroval : m.type = .approval) {n : DiagramNode} (hn : n ∈ d.nodes)
    {g : ProcessNode} (hlow : (Blueprint.ofDiagram options d).Lowers n g)
    (hfeeds : d.Feeds m.id n.id) : m.id ∈ g.predecessorIds := by
  rcases hfeeds with hedge | ⟨q, hq, hid⟩
  · obtain ⟨n', hn', hid⟩ := hedge.2.1
    -- no gateway stands at the beginning of the edge, so there is no proxy on it
    have hkind : n'.kind.nodeType = .approval := by
      rcases (hd.mem_nodes_iff hc).mp hm with ⟨n'', hn'', hl⟩ | ⟨n'', -, q, -, rfl⟩
      · have hlow' := Blueprint.lowers_of_lower hl
        obtain rfl := List.inj_on_of_nodup_map hd.distinct hn' hn'' (hid.trans hlow'.id)
        exact hlow'.type.symm.trans happroval
      · exact absurd hid (hd.ne_proxyId hn' q n''.id)
    have hplain : d.bridges m.id n.id = false := by
      rw [bridges_eq hd.distinct hn, ← hid, kindOf?_eq hd.distinct hn']
      show (n'.kind.isGateway && n.kind.isConcurrent) = false
      cases hgate : n'.kind <;> rw [hgate] at hkind <;> first | rfl | cases hkind
    exact hlow.mem_predecessorIds_of_hasEdge hd.distinct hn hedge hplain
  · rw [hid]
    exact hlow.proxyId_mem_predecessorIds hd.distinct hn hq

variable {e : EventName} {policy : JoinPolicy} (he : e.joinPolicy? = some policy)

include he

/-- **The dispatcher finds the gateways that a step feeds.** -/
theorem mem_joinsAfter_iff_feeds (happroval : m.type = .approval) (tasks : List Task) {x : String} :
    x ∈ (Snapshot.ofParts p.table tasks).joinsAfter m.id (some policy) ↔
      ∃ n ∈ d.nodes, n.id = x ∧ n.kind.joinPolicy? = some policy ∧ d.Feeds m.id x := by
  rw [show p.table = .ofList p.nodes from rfl, Snapshot.mem_joinsAfter_iff (hd.nodup_ids hc)]
  constructor
  · rintro ⟨g, hg, rfl, hjoin, hpolicy, hlists⟩
    have hpolicy : g.joinPolicy? = some policy := hpolicy.resolve_left nofun
    have hgate := (ProcessNode.exists_event_of_isConcurrentJoin hjoin).1
    obtain ⟨n, hn, hlow⟩ := hd.exists_drawn_of_gateway hc hg hgate
    refine ⟨n, hn, hlow.id.symm, hlow.joinPolicy.symm.trans hpolicy, ?_⟩
    rw [hlow.id]
    rcases hd.cases_of_mem_predecessorIds hc hn hlow hm hlists with
      ⟨n', -, hl, hedge⟩ | ⟨q, hq, rfl⟩
    · rw [(Blueprint.lowers_of_lower hl).id]
      exact .inl hedge
    · exact .inr ⟨q, hq, rfl⟩
  · rintro ⟨n, hn, rfl, hpolicy, hfeeds⟩
    obtain ⟨g, hg, hl⟩ := exists_lowered_of_compile hc hn
    have hlow := Blueprint.lowers_of_lower hl
    have hjoin : g.isConcurrentJoin = true :=
      hlow.isConcurrentJoin_eq.trans (NodeKind.isConcurrent_of_joinPolicy? he hpolicy)
    exact ⟨g, hg, hlow.id, hjoin, .inr (hlow.joinPolicy.trans hpolicy),
      hd.lists_of_feeds hc hm happroval hn hlow hfeeds⟩

/-- A step that subscribes to a completion event feeds a gateway that the event is about. -/
theorem feeds_of_subscribes (hsub : m.subscribesTo e = true) :
    ∃ n ∈ d.nodes, n.kind.joinPolicy? = some policy ∧ d.Feeds m.id n.id := by
  rcases (hd.mem_nodes_iff hc).mp hm with ⟨n, hn, hl⟩ | ⟨n, hn, q, hq, rfl⟩
  · rcases Blueprint.cases_of_subscribes hl hsub with hmem | ⟨-, hmem⟩ | hlifecycle
    · obtain ⟨policy', he', n', hn', hpolicy, hedge⟩ :=
        Blueprint.exists_gateway_of_mem_gatewayCompletionEvents hd.distinct hmem
      obtain rfl := Option.some.inj (he.symm.trans he')
      rw [(Blueprint.lowers_of_lower hl).id]
      exact ⟨n', hn', hpolicy, .inl hedge⟩
    · rcases Blueprint.ancestors_of_mem_rejectCleanupEvents hmem with ⟨rfl, -⟩ | ⟨rfl, -⟩ <;>
        cases he
    · exact absurd hlifecycle (EventName.not_isLifecycle_of_joinPolicy? he)
  · rcases cases_of_subscribes_proxyNode hsub with hmem | hlifecycle
    · obtain ⟨policy', he', hpolicy⟩ := policy_of_mem_completionEvents hmem
      obtain rfl := Option.some.inj (he.symm.trans he')
      exact ⟨n, hn, hpolicy, .inr ⟨q, hq, rfl⟩⟩
    · exact absurd hlifecycle (EventName.not_isLifecycle_of_joinPolicy? he)

/-- **A step subscribes to a completion event iff it feeds a gateway that the event is about.** -/
theorem subscribes_iff_feeds (happroval : m.type = .approval) :
    m.subscribesTo e = true ↔
      ∃ n ∈ d.nodes, n.kind.joinPolicy? = some policy ∧ d.Feeds m.id n.id := by
  refine ⟨hd.feeds_of_subscribes hc hm he, ?_⟩
  rintro ⟨n, hn, hpolicy, hfeeds⟩
  obtain ⟨g, hg, hl⟩ := exists_lowered_of_compile hc hn
  have hlow := Blueprint.lowers_of_lower hl
  have hjoin : g.isConcurrentJoin = true :=
    hlow.isConcurrentJoin_eq.trans (NodeKind.isConcurrent_of_joinPolicy? he hpolicy)
  exact hd.subscribes_of_join hc hg (ProcessNode.exists_event_of_isConcurrentJoin hjoin).1 hm
    happroval (hd.lists_of_feeds hc hm happroval hn hlow hfeeds) he (hlow.joinPolicy.trans hpolicy)

/-- What a step hears fits what the dispatcher looks for. -/
theorem findsGateways (happroval : m.type = .approval) (tasks : List Task) {kind : NodeKind}
    (hkind : kind.joinPolicy? = some policy) :
    d.FindsGateways (.ofParts p.table tasks) m e policy kind := by
  have hmem : ∀ x, x ∈ (Snapshot.ofParts p.table tasks).joinsAfter m.id (some policy) ↔ _ :=
    fun x => hd.mem_joinsAfter_iff_feeds hc hm he happroval tasks
  constructor
  case told =>
    rw [hd.subscribes_iff_feeds hc hm he happroval]
    constructor
    · rintro ⟨n, hn, hpolicy, hfeeds⟩
      exact List.ne_nil_of_mem ((hmem n.id).mpr ⟨n, hn, rfl, hpolicy, hfeeds⟩)
    · intro hfound
      obtain ⟨x, hx⟩ := List.exists_mem_of_ne_nil _ hfound
      obtain ⟨n, hn, rfl, hpolicy, hfeeds⟩ := (hmem x).mp hx
      exact ⟨n, hn, hpolicy, hfeeds⟩
  case exact =>
    intro x
    rw [hmem x]
    refine exists_congr fun n => and_congr_right fun _ => and_congr_right fun _ => ?_
    refine and_congr_left fun _ => ⟨fun hpolicy => NodeKind.joinPolicy?_inj hpolicy hkind, ?_⟩
    rintro rfl
    exact hkind
  case ascending => exact Snapshot.joinsAfter_pairwise p.nodes tasks m.id (some policy)

end Unambiguous

/-- **An approval step subscribes to the completion event of a kind of gateway iff the dispatcher
finds a gateway for it, and what it finds are the gateways of that kind that the step feeds.** This
goes for people's steps, for the system's and for proxies, whatever the tasks are. -/
theorem completions_found (hd : d.Unambiguous) (hc : d.compile options name = .ok p) :
    ∀ m ∈ p.nodes, m.type = .approval → ∀ tasks,
      d.FindsGateways (.ofParts p.table tasks) m .taskParallelPass .waitAll .parallel ∧
        d.FindsGateways (.ofParts p.table tasks) m .taskInclusionPass .onArrival .inclusion :=
  fun _ hm happroval tasks =>
    ⟨hd.findsGateways hc hm rfl happroval tasks rfl, hd.findsGateways hc hm rfl happroval tasks rfl⟩

/-- The proxy on the way back of the last gateway to itself is told of that gateway alone. -/
theorem completions_found_chained :
    ∃ p, chained.compile {} "chained" = .ok p ∧ ∃ m ∈ p.nodes, m.id = "proxy_Q_Q" ∧
      m.type = .approval ∧
      chained.FindsGateways (.ofParts p.table []) m .taskParallelPass .waitAll .parallel ∧
      chained.FindsGateways (.ofParts p.table []) m .taskInclusionPass .onArrival .inclusion := by
  have hd : chained.Unambiguous := by decide
  obtain ⟨p, hp, m, hm, hid, happroval⟩ : ∃ p, chained.compile {} "chained" = .ok p ∧
      ∃ m ∈ p.nodes, m.id = "proxy_Q_Q" ∧ m.type = .approval := ⟨_, rfl, by decide⟩
  exact ⟨p, hp, m, hm, hid, happroval, completions_found hd hp m hm happroval []⟩

end Diagram

end ApprovalFlow
