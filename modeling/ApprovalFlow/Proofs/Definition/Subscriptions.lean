import ApprovalFlow.Proofs.Definition.Links
import ApprovalFlow.Proofs.Dispatch.Verdict

/-!
# Subscriptions

A gateway waits for its branches, and the dispatcher closes a branch when it is told that a task in
front of the gateway finished. It is told only what the node of the task subscribes to. The
subscriptions are read off the diagram, and the dispatcher reads the gateways off the compiled links;
they fit together.

- `ProcessNode.Hears`: what a node subscribes to, as lists of events.
- `Blueprint.exists_hears`, `exists_hears_proxyNode`: what is written by each way of lowering.
- `Blueprint.cases_of_subscribes`, `cases_of_subscribes_proxyNode`: **a compiled node subscribes to
  completion events, to cleanup events, and to what tells of its own course**, and to nothing else.
- `Blueprint.mem_gatewayCompletionEvents`, `mem_completionEvents`: what a drawn node and a proxy
  subscribe to.
- `Diagram.Unambiguous.cases_of_mem_predecessorIds`: who stands in front of a compiled node.
- `Diagram.Unambiguous.subscribes_of_join`: **every approval step in front of a gateway subscribes to
  the gateway's completion event.**
-/

namespace ApprovalFlow

namespace EventName

/-- Different events have different texts. -/
theorem text_injective : Function.Injective text := by
  intro e e' h
  have hfound : ofText? e'.text = some e := h ▸ ofText?_text e
  rw [ofText?_text] at hfound
  exact (Option.some.inj hfound).symm

/-- So an event is among some iff its text is among theirs. -/
theorem mem_texts_iff {e : EventName} {events : List EventName} :
    e.text ∈ events.map text ↔ e ∈ events :=
  List.mem_map_of_injective text_injective

/-- Does the event tell of the course of a node, and of no branch? -/
def isLifecycle : EventName → Bool
  | .taskNodeStart | .taskNodeEnd | .automationStart | .notify | .notifyCC | .processEnd => true
  | .taskParallelPass | .taskInclusionPass | .concurrentRejectCleanup
  | .gatewayConditionReject => false

/-- Does the event tell that a node starts? -/
def isStart : EventName → Bool
  | .taskNodeStart | .automationStart | .notify | .notifyCC | .processEnd => true
  | .taskNodeEnd | .taskParallelPass | .taskInclusionPass | .concurrentRejectCleanup
  | .gatewayConditionReject => false

/-- Does a task begin at the event? -/
def beginsTasks : EventName → Bool
  | .taskNodeStart | .automationStart => true
  | .notify | .notifyCC | .processEnd | .taskNodeEnd | .taskParallelPass | .taskInclusionPass
  | .concurrentRejectCleanup | .gatewayConditionReject => false

theorem isLifecycle_of_isStart {e : EventName} (h : e.isStart = true) : e.isLifecycle = true := by
  cases e with
  | taskNodeStart | automationStart | notify | notifyCC | processEnd => rfl
  | _ => cases h

/-- An event that is about gateways of some policy does not tell of the course of a node. -/
theorem not_isLifecycle_of_joinPolicy? {e : EventName} {policy : JoinPolicy}
    (he : e.joinPolicy? = some policy) : e.isLifecycle ≠ true := by
  cases e with
  | taskParallelPass | taskInclusionPass => exact Bool.false_ne_true
  | _ => cases he

end EventName

/-! ## What a node subscribes to -/

namespace ProcessNode

variable {n : ProcessNode} {finishes starts ends : List EventName} {e : EventName}

/-- A node subscribes to an event when a task finishes, when it starts, or when it ends. -/
theorem subscribesTo_iff :
    n.subscribesTo e = true ↔ e.text ∈ n.taskFinishEvents ∨ e.text ∈ n.nodeStartEvents ∨
      e.text ∈ n.nodeEndEvents := by
  unfold subscribesTo
  simp only [Bool.or_eq_true, List.contains_iff_mem, or_assoc]

/-- What a node hears of: tasks that finish, its start, and its end. -/
structure Hears (n : ProcessNode) (finishes starts ends : List EventName) : Prop where
  taskFinishEvents : n.taskFinishEvents = finishes.map EventName.text
  nodeStartEvents : n.nodeStartEvents = starts.map EventName.text
  nodeEndEvents : n.nodeEndEvents = ends.map EventName.text
  isStart : ∀ e ∈ starts, e.isStart = true
  isEnd : ∀ e ∈ ends, e = .taskNodeEnd
  /-- No event of the start is there twice. -/
  distinct : starts.Nodup
  /-- A task of the system's begins at one event. -/
  beginsOnce : n.isSystemAuto = true → ∃ e, starts.filter EventName.beginsTasks = [e]

/-- Apart from its tasks a node hears of its own course only. -/
theorem Hears.cases_of_subscribes (h : n.Hears finishes starts ends)
    (hsub : n.subscribesTo e = true) : e ∈ finishes ∨ e.isLifecycle = true := by
  have hmem := subscribesTo_iff.mp hsub
  rw [h.taskFinishEvents, h.nodeStartEvents, h.nodeEndEvents, EventName.mem_texts_iff,
    EventName.mem_texts_iff, EventName.mem_texts_iff] at hmem
  rcases hmem with hmem | hmem | hmem
  · exact .inl hmem
  · exact .inr (EventName.isLifecycle_of_isStart (h.isStart e hmem))
  · obtain rfl := h.isEnd e hmem
    exact .inr rfl

/-- A node that nobody approves subscribes to no task and to no end. -/
theorem hears_unattended (starts : List EventName) (happrovers : n.approverIds = [])
    (hfinishes : n.taskFinishEvents = [])
    (hstarts : n.nodeStartEvents = starts.map EventName.text) (hends : n.nodeEndEvents = [])
    (hknown : ∀ e ∈ starts, e.isStart = true) (hdistinct : starts.Nodup) :
    n.Hears [] starts [] where
  taskFinishEvents := hfinishes
  nodeStartEvents := hstarts
  nodeEndEvents := hends
  isStart := hknown
  isEnd := nofun
  distinct := hdistinct
  beginsOnce hauto := by
    unfold isSystemAuto at hauto
    rw [happrovers] at hauto
    cases hauto

/-- A node with tasks subscribes to its end and, when it starts, to the event that begins a task,
perhaps with a notice. -/
theorem hears_step (first notice : EventName) (noticed : Bool)
    (hfinishes : n.taskFinishEvents = finishes.map EventName.text)
    (hstarts : n.nodeStartEvents = first.text :: if noticed then [notice.text] else [])
    (hends : n.nodeEndEvents = [EventName.taskNodeEnd.text])
    (hfirst : first.isStart = true ∧ first.beginsTasks = true)
    (hnotice : notice.isStart = true ∧ notice.beginsTasks = false) :
    n.Hears finishes (first :: if noticed then [notice] else []) [.taskNodeEnd] where
  taskFinishEvents := hfinishes
  nodeStartEvents := by cases noticed <;> exact hstarts
  nodeEndEvents := hends
  isStart := by cases noticed <;> simp [hfirst.1, hnotice.1]
  isEnd := by simp
  distinct := by
    have hne : first ≠ notice := by
      rintro rfl
      rw [hfirst.2] at hnotice
      cases hnotice.2
    cases noticed <;> simp [hne]
  beginsOnce _ := ⟨first, by cases noticed <;> simp [hfirst.2, hnotice.2]⟩

end ProcessNode

/-- A proxy hears of the tasks in front of the gateway behind it, and of its own course like an
approval step. -/
theorem exists_hears_proxyNode (source target : String) (kind : NodeKind) :
    ∃ finishes starts ends, (proxyNode source target kind).Hears finishes starts ends := by
  obtain ⟨finishes, hfinishes⟩ : ∃ finishes : List EventName,
      completionEvents kind = finishes.map EventName.text := by
    cases kind with
    | parallel => exact ⟨[.taskParallelPass], rfl⟩
    | inclusion => exact ⟨[.taskInclusionPass], rfl⟩
    | _ => exact ⟨[], rfl⟩
  exact ⟨_, _, _, ProcessNode.hears_step .taskNodeStart .notifyCC false hfinishes rfl rfl ⟨rfl, rfl⟩
    ⟨rfl, rfl⟩⟩

/-- A proxy subscribes to the completion event of the gateway behind it, and to its own course. -/
theorem cases_of_subscribes_proxyNode {e : EventName} {source target : String} {kind : NodeKind}
    (h : (proxyNode source target kind).subscribesTo e = true) :
    e.text ∈ completionEvents kind ∨ e.isLifecycle = true := by
  obtain ⟨finishes, starts, ends, hhears⟩ := exists_hears_proxyNode source target kind
  refine (hhears.cases_of_subscribes h).imp_left fun hmem => ?_
  show e.text ∈ (proxyNode source target kind).taskFinishEvents
  rw [hhears.taskFinishEvents]
  exact List.mem_map_of_mem hmem

namespace Blueprint

/-- Two events, each of which may be left out, are written as their texts. -/
theorem exists_events (first second : EventName) (asked asked' : Bool) :
    ∃ events : List EventName, (if asked then [first.text] else []) ++
      (if asked' then [second.text] else []) = events.map EventName.text :=
  ⟨(if asked then [first] else []) ++ if asked' then [second] else [], by
    cases asked <;> cases asked' <;> rfl⟩

variable {b : Blueprint} {n : DiagramNode} {m : ProcessNode}

/-- **What a lowered node hears of**, by cases on its kind. Only steps of people hear of cleanups. -/
theorem exists_hears (h : b.lower n = .ok m) :
    ∃ finishes starts ends, m.Hears finishes starts ends ∧
      ∀ e ∈ finishes, e.text ∈ b.gatewayCompletionEvents n.id ∨
        (n.kind = .user ∧ e.text ∈ b.rejectCleanupEvents n.id) := by
  obtain ⟨completions, hcompletions⟩ : ∃ events : List EventName,
      b.gatewayCompletionEvents n.id = events.map EventName.text := exists_events _ _ _ _
  obtain ⟨cleanups, hcleanups⟩ : ∃ events : List EventName,
      b.rejectCleanupEvents n.id = events.map EventName.text := exists_events _ _ _ _
  unfold lower at h
  cases hkind : n.kind with
  | start | condition | parallel | inclusion =>
    rw [hkind] at h
    obtain rfl := Except.ok.inj h
    exact ⟨_, _, _, ProcessNode.hears_unattended [] rfl rfl rfl rfl nofun .nil, nofun⟩
  | finish =>
    rw [hkind] at h
    obtain rfl := Except.ok.inj h
    exact ⟨_, _, _, ProcessNode.hears_unattended [.processEnd] rfl rfl rfl rfl (by decide)
      (by decide), nofun⟩
  | user =>
    rw [hkind] at h
    dsimp only at h
    split at h
    · rename_i u _
      obtain rfl := Except.ok.inj h
      have hfinishes : b.gatewayCompletionEvents n.id ++ b.rejectCleanupEvents n.id =
          (completions ++ cleanups).map EventName.text := by
        rw [hcompletions, hcleanups, List.map_append]
      refine ⟨_, _, _, ProcessNode.hears_step .taskNodeStart .notifyCC u.carbonCopy hfinishes rfl rfl
        ⟨rfl, rfl⟩ ⟨rfl, rfl⟩, fun e he => ?_⟩
      rw [hcompletions, hcleanups]
      exact (List.mem_append.mp he).imp List.mem_map_of_mem fun he => ⟨rfl, List.mem_map_of_mem he⟩
    · cases h
  | automation =>
    rw [hkind] at h
    dsimp only at h
    split at h
    · rename_i a _
      obtain rfl := Except.ok.inj h
      refine ⟨_, _, _, ProcessNode.hears_step .automationStart .notify a.notifies hcompletions rfl rfl
        ⟨rfl, rfl⟩ ⟨rfl, rfl⟩, fun e he => ?_⟩
      rw [hcompletions]
      exact .inl (List.mem_map_of_mem he)
    · cases h

/-- **What a lowered node subscribes to.** -/
theorem cases_of_subscribes {e : EventName} (h : b.lower n = .ok m)
    (hsub : m.subscribesTo e = true) :
    e.text ∈ b.gatewayCompletionEvents n.id ∨
      (n.kind = .user ∧ e.text ∈ b.rejectCleanupEvents n.id) ∨ e.isLifecycle = true := by
  obtain ⟨finishes, starts, ends, hhears, hfinishes⟩ := exists_hears h
  rcases hhears.cases_of_subscribes hsub with hmem | hlifecycle
  · exact (hfinishes e hmem).imp_right .inl
  · exact .inr (.inr hlifecycle)

end Blueprint

/-! ## Completion events -/

/-- Gateways of one policy are of one kind. -/
theorem NodeKind.joinPolicy?_inj {kind kind' : NodeKind} {policy : JoinPolicy}
    (h : kind.joinPolicy? = some policy) (h' : kind'.joinPolicy? = some policy) : kind = kind' := by
  cases kind <;> cases h <;> cases kind' <;> first | rfl | cases h'

/-- A proxy subscribes to the completion event of the gateway behind it. -/
theorem mem_completionEvents {e : EventName} {kind : NodeKind} {policy : JoinPolicy}
    (he : e.joinPolicy? = some policy) (hkind : kind.joinPolicy? = some policy) :
    e.text ∈ completionEvents kind := by
  cases e with
  | taskParallelPass =>
    obtain rfl := Option.some.inj he
    obtain rfl : kind = .parallel := NodeKind.joinPolicy?_inj hkind rfl
    exact List.mem_singleton_self _
  | taskInclusionPass =>
    obtain rfl := Option.some.inj he
    obtain rfl : kind = .inclusion := NodeKind.joinPolicy?_inj hkind rfl
    exact List.mem_singleton_self _
  | _ => cases he

/-- It subscribes to no other completion event. -/
theorem policy_of_mem_completionEvents {e : EventName} {kind : NodeKind}
    (h : e.text ∈ completionEvents kind) :
    ∃ policy, e.joinPolicy? = some policy ∧ kind.joinPolicy? = some policy := by
  cases kind with
  | parallel =>
    obtain rfl := EventName.text_injective (List.mem_singleton.mp h)
    exact ⟨.waitAll, rfl, rfl⟩
  | inclusion =>
    obtain rfl := EventName.text_injective (List.mem_singleton.mp h)
    exact ⟨.onArrival, rfl, rfl⟩
  | _ => cases h

/-- There is a completion event for every parallel and every inclusion gateway. -/
theorem ProcessNode.exists_event_of_isConcurrentJoin {n : ProcessNode}
    (h : n.isConcurrentJoin = true) :
    n.type = .gateway ∧ ∃ policy, ∃ e : EventName,
      n.joinPolicy? = some policy ∧ e.joinPolicy? = some policy := by
  obtain ⟨hgate, hconcurrent⟩ := Bool.and_eq_true_iff.mp h
  refine ⟨beq_iff_eq.mp hgate, ?_⟩
  cases hpolicy : n.joinPolicy? with
  | none =>
    rw [hpolicy] at hconcurrent
    cases hconcurrent
  | some policy =>
    rw [hpolicy] at hconcurrent
    cases policy with
    | waitAll => exact ⟨_, .taskParallelPass, rfl, rfl⟩
    | onArrival => exact ⟨_, .taskInclusionPass, rfl, rfl⟩
    | chainedCondition => cases hconcurrent

namespace Blueprint

variable {options : CompilerOptions} {d : Diagram}

theorem hasSuccessorOfKind_of_hasEdge (hd : (d.nodes.map (·.id)).Nodup) {a : String}
    {n : DiagramNode} (hn : n ∈ d.nodes) (hedge : d.HasEdge a n.id) :
    (Adjacency.ofDiagram d).hasSuccessorOfKind a n.kind = true := by
  unfold Adjacency.hasSuccessorOfKind
  refine List.any_eq_true.mpr ⟨n.id, Adjacency.mem_successors_iff.mpr hedge, ?_⟩
  rw [Adjacency.kind?_ofDiagram, Diagram.kindOf?_eq hd hn]
  exact beq_self_eq_true _

/-- A drawn approval step subscribes to the completion events of the gateways that it feeds. -/
theorem mem_gatewayCompletionEvents (hd : (d.nodes.map (·.id)).Nodup) {a : String}
    {n : DiagramNode} (hn : n ∈ d.nodes) (hedge : d.HasEdge a n.id) {e : EventName}
    {policy : JoinPolicy} (he : e.joinPolicy? = some policy)
    (hkind : n.kind.joinPolicy? = some policy) :
    e.text ∈ (ofDiagram options d).gatewayCompletionEvents a := by
  have hsucc := hasSuccessorOfKind_of_hasEdge hd hn hedge
  show e.text ∈ (if (Adjacency.ofDiagram d).hasSuccessorOfKind a .parallel then _ else _) ++
    if (Adjacency.ofDiagram d).hasSuccessorOfKind a .inclusion then _ else _
  cases e with
  | taskParallelPass =>
    obtain rfl := Option.some.inj he
    have hparallel : n.kind = .parallel := NodeKind.joinPolicy?_inj hkind rfl
    rw [hparallel] at hsucc
    rw [if_pos hsucc]
    exact List.mem_append_left _ (List.mem_singleton_self _)
  | taskInclusionPass =>
    obtain rfl := Option.some.inj he
    have hinclusion : n.kind = .inclusion := NodeKind.joinPolicy?_inj hkind rfl
    rw [hinclusion] at hsucc
    rw [if_pos hsucc]
    exact List.mem_append_right _ (List.mem_singleton_self _)
  | _ => cases he

/-- It subscribes to no other events of this kind. -/
theorem cases_of_mem_gatewayCompletionEvents {b : Blueprint} {a : String} {e : EventName}
    (h : e.text ∈ b.gatewayCompletionEvents a) :
    (e = .taskParallelPass ∧ b.adjacency.hasSuccessorOfKind a .parallel = true) ∨
      (e = .taskInclusionPass ∧ b.adjacency.hasSuccessorOfKind a .inclusion = true) := by
  rcases List.mem_append.mp h with h | h
  · split at h
    · rename_i hparallel
      exact .inl ⟨EventName.text_injective (List.mem_singleton.mp h), hparallel⟩
    · cases h
  · split at h
    · rename_i hinclusion
      exact .inr ⟨EventName.text_injective (List.mem_singleton.mp h), hinclusion⟩
    · cases h

/-- Each of them comes from a gateway that it feeds. -/
theorem exists_gateway_of_mem_gatewayCompletionEvents (hd : (d.nodes.map (·.id)).Nodup) {a : String}
    {e : EventName} (h : e.text ∈ (ofDiagram options d).gatewayCompletionEvents a) :
    ∃ policy, e.joinPolicy? = some policy ∧
      ∃ n ∈ d.nodes, n.kind.joinPolicy? = some policy ∧ d.HasEdge a n.id := by
  have hsuccessor : ∀ kind, (Adjacency.ofDiagram d).hasSuccessorOfKind a kind = true →
      ∃ n ∈ d.nodes, n.kind = kind ∧ d.HasEdge a n.id := by
    intro kind hkind
    obtain ⟨s, hs, hkind⟩ := List.any_eq_true.mp hkind
    have hedge := Adjacency.mem_successors_iff.mp hs
    obtain ⟨n, hn, rfl⟩ := hedge.2.2
    rw [Adjacency.kind?_ofDiagram, Diagram.kindOf?_eq hd hn, beq_iff_eq] at hkind
    exact ⟨n, hn, Option.some.inj hkind, hedge⟩
  rcases cases_of_mem_gatewayCompletionEvents h with ⟨rfl, hkind⟩ | ⟨rfl, hkind⟩
  · obtain ⟨n, hn, hparallel, hedge⟩ := hsuccessor .parallel hkind
    exact ⟨.waitAll, rfl, n, hn, by rw [hparallel]; rfl, hedge⟩
  · obtain ⟨n, hn, hinclusion, hedge⟩ := hsuccessor .inclusion hkind
    exact ⟨.onArrival, rfl, n, hn, by rw [hinclusion]; rfl, hedge⟩

end Blueprint

namespace Diagram.Unambiguous

variable {options : CompilerOptions} {name : String} {d : Diagram} {p : ProcessDefinition}
  (hd : d.Unambiguous) (hc : d.compile options name = .ok p)

include hd hc

/-- In front of a lowered node stand the nodes lowered from the beginnings of its edges, and the
proxies on its edges. -/
theorem cases_of_mem_predecessorIds {n : DiagramNode} (hn : n ∈ d.nodes) {g m : ProcessNode}
    (hg : (Blueprint.ofDiagram options d).Lowers n g) (hm : m ∈ p.nodes)
    (hlists : m.id ∈ g.predecessorIds) :
    (∃ n' ∈ d.nodes, (Blueprint.ofDiagram options d).lower n' = .ok m ∧ d.HasEdge n'.id n.id) ∨
      ∃ q, d.Proxied q n.id ∧ m = proxyNode q n.id n.kind := by
  obtain ⟨q, hq, hentry⟩ := (hg.mem_predecessorIds_iff hd.distinct hn).mp hlists
  rcases (hd.mem_nodes_iff hc).mp hm with ⟨n', hn', hl⟩ | ⟨n', hn', q', hq', rfl⟩
  · rw [(Blueprint.lowers_of_lower hl).id] at hentry
    obtain ⟨rfl, -⟩ := (hd.entryId_eq_iff hn' q n.id).mp hentry
    exact .inl ⟨n', hn', hl, hq⟩
  · -- the entry is this proxy, so the proxy is on this edge
    have hentry : d.entryId q n.id = proxyId q' n'.id := hentry
    unfold entryId at hentry
    split at hentry
    · rename_i hbridge
      obtain ⟨rfl, hid⟩ := hd.proxyId_inj _ _ _ _ ⟨hq, hbridge⟩ hq' hentry
      obtain rfl := List.inj_on_of_nodup_map hd.distinct hn hn' hid
      exact .inr ⟨q, hq', rfl⟩
    · obtain ⟨n'', hn'', rfl⟩ := hq.2.1
      exact absurd hentry (hd.ne_proxyId hn'' q' n'.id)

/-- **Every approval step in front of a gateway subscribes to the gateway's completion event.** -/
theorem subscribes_of_join {g m : ProcessNode} (hg : g ∈ p.nodes) (hgate : g.type = .gateway)
    (hm : m ∈ p.nodes) (happroval : m.type = .approval) (hlists : m.id ∈ g.predecessorIds)
    {e : EventName} {policy : JoinPolicy} (he : e.joinPolicy? = some policy)
    (hpolicy : g.joinPolicy? = some policy) : m.subscribesTo e = true := by
  have hevents : e.text ∈ m.taskFinishEvents := by
    obtain ⟨n, hn, hlow⟩ := hd.exists_drawn_of_gateway hc hg hgate
    have hkind : n.kind.joinPolicy? = some policy := hlow.joinPolicy.symm.trans hpolicy
    rcases hd.cases_of_mem_predecessorIds hc hn hlow hm hlists with
      ⟨n', hn', hl, hedge⟩ | ⟨q, hq, rfl⟩
    · have hlow' := Blueprint.lowers_of_lower hl
      exact hlow'.completion (hlow'.type.symm.trans happroval) _
        (Blueprint.mem_gatewayCompletionEvents hd.distinct hn hedge he hkind)
    · exact mem_completionEvents he hkind
  unfold ProcessNode.subscribesTo
  rw [List.contains_iff_mem.mpr hevents]
  rfl

end Diagram.Unambiguous

end ApprovalFlow
