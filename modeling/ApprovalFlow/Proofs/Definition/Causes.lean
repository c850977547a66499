import ApprovalFlow.Proofs.History.Siblings

/-!
# The gateway that a cleanup acts on

Two nodes above a step make the compilation subscribe it to a cleanup event: a condition and a
concurrent gateway, one behind the other. It is enough that there are two such nodes among all that
are drawn above the step. When a task of the step is rejected, the dispatcher looks for the gateway
once more. For a condition behind a gateway it looks at both nodes again. For a gateway behind a
condition it takes the first concurrent gateway drawn before the step, and not the condition. So it
can take a gateway that has nothing to do with the subscription, and close the branches of that one.

- `Diagram.Causes`: the gateways for which the compilation subscribes a step.
- `Diagram.Unambiguous.concurrentParent?_eq`: above a node that is no concurrent gateway the
  dispatcher finds the first concurrent gateway that is drawn.
- `Diagram.cleanup_acts_on`: **the dispatcher acts on a gateway that is a cause, but for a gateway
  behind a condition only if the first gateway drawn before the step stands behind one.** The
  commands are about the heads of the gateway's other branches.
- `Diagram.wrong_branches_closed`: a rejection that closes branches of a gateway which is no cause.
-/

namespace ApprovalFlow

/-- **The commands of a cleanup are about the heads of the gateway's other branches.** -/
theorem branchNode?_cleanup_iff {p : ProcessDefinition} {tasks : List Task} {e : EventName}
    {t : Task} {gateway own : String} (hnodes : (p.nodes.map (·.id)).Nodup)
    (he : e.isCleanup = true) (hrejected : t.isRejected = true)
    (hbranch : (Snapshot.ofParts p.table tasks).rejectedBranch? e t.nodeId = some (gateway, own))
    (o : DispatchOptions) {x : String} :
    (∃ c ∈ decideTaskFinished e t (.ofParts p.table tasks) o, c.branchNode? = some x) ↔
      p.IsSiblingHead gateway own x := by
  constructor
  · rintro ⟨c, hc, hx⟩
    obtain ⟨head, hhead, hc⟩ := (mem_cleanup_iff hnodes he hrejected hbranch o).mp hc
    rw [branchNode?_of_mem_closeSibling hc] at hx
    exact Option.some.inj hx ▸ hhead
  · intro hhead
    have hfinish : Command.finishPending x none .systemRejected o.cleanupComment ∈
        decideTaskFinished e t (.ofParts p.table tasks) o :=
      (finishPending_mem_cleanup_iff hnodes he hrejected hbranch o).mpr ⟨hhead, rfl, rfl, rfl⟩
    exact ⟨_, hfinish, rfl⟩

/-- A gateway that does not join several branches is a condition. -/
theorem NodeKind.eq_condition {kind : NodeKind} (h : kind.nodeType = .gateway)
    (hplain : kind.isConcurrent = false) : kind = .condition := by
  cases kind with
  | condition => rfl
  | parallel | inclusion => cases hplain
  | start | finish | user | automation => cases h

namespace Diagram

/-! ## Causes -/

/-- Is an edge drawn from a node whose kind passes the test? -/
def Above (d : Diagram) (test : NodeKind → Bool) (above id : String) : Prop :=
  d.HasEdge above id ∧ (d.kindOf? above).any test = true

instance (d : Diagram) (test : NodeKind → Bool) (above id : String) :
    Decidable (d.Above test above id) :=
  inferInstanceAs (Decidable (_ ∧ _))

/-- The gateways for which the compilation subscribes a step to a cleanup event, with the heads of
the branches that the step is on. -/
def Causes (d : Diagram) (e : EventName) (gateway own step : String) : Prop :=
  match e with
  | .concurrentRejectCleanup => own = step ∧ d.Above NodeKind.isConcurrent gateway step ∧
      ∃ c, d.Above (· == .condition) c gateway
  | .gatewayConditionReject =>
    d.Above NodeKind.isConcurrent gateway own ∧ d.Above (· == .condition) own step
  | _ => False

/-- The first concurrent gateway from which an edge is drawn to the id. -/
def firstConcurrent? (d : Diagram) (id : String) : Option String :=
  (d.edges.find? fun e => e.target == id && (d.kindOf? e.source).any NodeKind.isConcurrent).map
    (·.source)

/-- Does the first concurrent gateway drawn before a step stand behind a condition? -/
def FirstBehindCondition (d : Diagram) (id : String) : Prop :=
  ∃ g, d.firstConcurrent? id = some g ∧ ∃ c, d.Above (· == .condition) c g

variable {options : CompilerOptions} {name : String} {d : Diagram} {p : ProcessDefinition}

/-- It is the first concurrent gateway among the predecessors of the id. -/
theorem find?_concurrent_predecessors {n : DiagramNode} (hn : n ∈ d.nodes) :
    ((Adjacency.ofDiagram d).predecessors n.id).find?
        (fun q => (d.kindOf? q).any NodeKind.isConcurrent) = d.firstConcurrent? n.id := by
  rw [Adjacency.find?_predecessors]
  unfold firstConcurrent? linkingEdges
  rw [List.find?_filter]
  refine congrArg (Option.map _) (List.find?_congr fun e _ => ?_)
  rw [Bool.eq_iff_iff, decide_eq_true_iff]
  refine ⟨fun h => h.2, fun h => ⟨?_, h⟩⟩
  -- an edge that passes the test is between nodes
  obtain ⟨htarget, htest⟩ := Bool.and_eq_true_iff.mp h
  rw [beq_iff_eq] at htarget
  rw [Option.isSome_of_any htest, htarget, isSome_kindOf?.mpr ⟨n, hn, rfl⟩]
  rfl

/-- What is found is there. -/
theorem above_of_firstConcurrent? {n : DiagramNode} (hn : n ∈ d.nodes) {g : String}
    (h : d.firstConcurrent? n.id = some g) : d.Above NodeKind.isConcurrent g n.id := by
  rw [← find?_concurrent_predecessors hn] at h
  have htest := List.find?_some h
  exact ⟨Adjacency.mem_predecessors_iff.mp (List.mem_of_find?_eq_some h), htest⟩

/-- A step subscribes to a cleanup event for a cause. -/
theorem exists_causes_of_mem (hd : (d.nodes.map (·.id)).Nodup) {id : String} {e : EventName}
    (h : e.text ∈ (Blueprint.ofDiagram options d).rejectCleanupEvents id) :
    ∃ gateway own, d.Causes e gateway own id := by
  have habove : ∀ {n : DiagramNode} {test : NodeKind → Bool} {x : String}, n ∈ d.nodes →
      d.HasEdge n.id x → test n.kind = true → d.Above test n.id x := by
    intro n test x hn hedge htest
    refine ⟨hedge, ?_⟩
    rw [kindOf?_eq hd hn]
    exact htest
  rcases Blueprint.ancestors_of_mem_rejectCleanupEvents h with
    ⟨rfl, hancestors⟩ | ⟨rfl, hancestors⟩
  · obtain ⟨a, ha, hedge, hgate, c, hc, hedge', hcondition⟩ :=
      Blueprint.exists_ancestors hd hancestors
    exact ⟨a.id, id, rfl, habove ha hedge hgate, c.id, habove hc hedge' hcondition⟩
  · obtain ⟨a, ha, hedge, hcondition, g, hg, hedge', hgate⟩ :=
      Blueprint.exists_ancestors hd hancestors
    exact ⟨g.id, a.id, habove hg hedge' hgate, habove ha hedge hcondition⟩

/-! ## What the dispatcher finds -/

namespace Unambiguous

variable (hd : d.Unambiguous) (hc : d.compile options name = .ok p)

include hd hc

/-- Above a node that is no concurrent gateway the dispatcher finds what is drawn there, in order: no
edge to such a node needs a proxy. -/
theorem parents_eq_of_plain {n : DiagramNode} (hn : n ∈ d.nodes)
    (hplain : n.kind.isConcurrent = false) (tasks : List Task) :
    (Snapshot.ofParts p.table tasks).parents n.id =
      ((Adjacency.ofDiagram d).predecessors n.id).filterMap p.table.find? := by
  obtain ⟨m, hfind, hlow⟩ := hd.exists_lowers hc hn
  have hentry : (d.entryId · n.id) = id := by
    funext q
    unfold entryId
    rw [bridges_eq_false hd.distinct hn hplain]
    rfl
  rw [Snapshot.parents_eq hfind, hlow.predecessorIds,
    Blueprint.predecessorIds_eq hd.distinct hn, hentry, List.map_id]
  rfl

/-- **Above a node that is no concurrent gateway the dispatcher finds the first concurrent gateway
that is drawn.** -/
theorem concurrentParent?_eq {n : DiagramNode} (hn : n ∈ d.nodes)
    (hplain : n.kind.isConcurrent = false) (tasks : List Task) :
    (Snapshot.ofParts p.table tasks).concurrentParent? n.id = d.firstConcurrent? n.id := by
  -- each predecessor is found, and joins as it is drawn
  have hfound : ∀ q ∈ (Adjacency.ofDiagram d).predecessors n.id, ∃ m, p.table.find? q = some m ∧
      m.id = q ∧ m.isConcurrentJoin = (d.kindOf? q).any NodeKind.isConcurrent := by
    intro q hq
    obtain ⟨n', hn', rfl⟩ := (Adjacency.mem_predecessors_iff.mp hq).2.1
    obtain ⟨m, hfind, hlow⟩ := hd.exists_lowers hc hn'
    refine ⟨m, hfind, hlow.id, ?_⟩
    rw [hlow.isConcurrentJoin_eq, kindOf?_eq hd.distinct hn']
    rfl
  have hfirst : ((Adjacency.ofDiagram d).predecessors n.id).find?
      (fun q => (p.table.find? q).any (·.isConcurrentJoin)) = d.firstConcurrent? n.id := by
    rw [← find?_concurrent_predecessors hn]
    refine List.find?_congr fun q hq => ?_
    obtain ⟨m, hfind, -, hjoins⟩ := hfound q hq
    rw [hfind]
    exact hjoins
  unfold Snapshot.concurrentParent?
  rw [hd.parents_eq_of_plain hc hn hplain, List.find?_filterMap, hfirst]
  cases hg : d.firstConcurrent? n.id with
  | none => rfl
  | some g =>
    obtain ⟨m, hfind, hid, -⟩ :=
      hfound g (Adjacency.mem_predecessors_iff.mpr (above_of_firstConcurrent? hn hg).1)
    show (p.table.find? g).map _ = some g
    rw [hfind]
    exact congrArg some hid

/-- Right above a step the dispatcher finds a gateway that is a cause iff the first one is. -/
theorem causes_concurrentRejectCleanup_iff {n : DiagramNode} (hn : n ∈ d.nodes)
    (hplain : n.kind.isConcurrent = false) {tasks : List Task} {gateway own : String}
    (h : (Snapshot.ofParts p.table tasks).rejectedBranch? .concurrentRejectCleanup n.id =
      some (gateway, own)) :
    d.Causes .concurrentRejectCleanup gateway own n.id ↔ d.FirstBehindCondition n.id := by
  obtain ⟨g, hfirst, heq⟩ := Option.map_eq_some_iff.mp h
  obtain ⟨rfl, rfl⟩ := Prod.mk.inj heq
  rw [hd.concurrentParent?_eq hc hn hplain] at hfirst
  constructor
  · rintro ⟨-, -, hcondition⟩
    exact ⟨g, hfirst, hcondition⟩
  · rintro ⟨g', hfirst', hcondition⟩
    obtain rfl := Option.some.inj (hfirst.symm.trans hfirst')
    exact ⟨rfl, above_of_firstConcurrent? hn hfirst, hcondition⟩

/-- Above a step the dispatcher finds a condition behind a concurrent gateway, if anything. -/
theorem causes_of_gatewayConditionReject {u : ProcessNode} (hu : u ∈ p.nodes) {n : DiagramNode}
    (hn : n ∈ d.nodes) (hlow : (Blueprint.ofDiagram options d).Lowers n u) {tasks : List Task}
    {gateway own : String}
    (h : (Snapshot.ofParts p.table tasks).rejectedBranch? .gatewayConditionReject n.id =
      some (gateway, own)) : d.Causes .gatewayConditionReject gateway own n.id := by
  obtain ⟨c, hmem, hfound⟩ := List.exists_of_findSome?_eq_some h
  obtain ⟨g, hgateway, heq⟩ := Option.map_eq_some_iff.mp hfound
  obtain ⟨rfl, rfl⟩ := Prod.mk.inj heq
  obtain ⟨hparent, htest⟩ := List.mem_filter.mp hmem
  obtain ⟨htype, hplain⟩ := Bool.and_eq_true_iff.mp htest
  obtain ⟨hcm, m, hm, hid, hlists⟩ := (Snapshot.mem_parents_iff (hd.nodup_ids hc)).mp hparent
  obtain rfl := List.inj_on_of_nodup_map (hd.nodup_ids hc) hm hu (hid.trans hlow.id.symm)
  rcases hd.cases_of_mem_predecessorIds hc hn hlow hcm hlists with
    ⟨n', hn', hl, hedge⟩ | ⟨q, -, rfl⟩
  · have hlow' := Blueprint.lowers_of_lower hl
    rw [hlow'.isConcurrentJoin_eq, Bool.not_eq_true'] at hplain
    rw [beq_iff_eq, hlow'.type] at htype
    have hcondition : n'.kind = .condition := NodeKind.eq_condition htype hplain
    rw [hlow'.id, hd.concurrentParent?_eq hc hn' hplain] at hgateway
    rw [hlow'.id]
    refine ⟨above_of_firstConcurrent? hn' hgateway, hedge, ?_⟩
    rw [kindOf?_eq hd.distinct hn', hcondition]
    rfl
  · -- a proxy is no gateway
    cases htype

end Unambiguous

/-! ## The gateway acted on -/

/-- **A cleanup acts on a gateway above the step, but not always on one that caused it.** A task is
rejected at a step, and a cleanup event that the step subscribes to is decided on. There is a gateway
for which the step subscribes. The dispatcher locates a gateway too, and its commands are about the
heads of the branches of that gateway beside the rejected one. The gateway located is one for which
the step subscribes iff the event is about a condition behind a gateway, or the first concurrent
gateway drawn before the step stands behind a condition. -/
theorem cleanup_acts_on (hd : d.Unambiguous) (hc : d.compile options name = .ok p)
    {u : ProcessNode} (hu : u ∈ p.nodes) {e : EventName} (he : e.isCleanup = true)
    (hsub : u.subscribesTo e = true) {tasks : List Task} {q : Task}
    (hnode : ((Snapshot.ofParts p.table tasks).current q).nodeId = u.id)
    (hrejected : ((Snapshot.ofParts p.table tasks).current q).isRejected = true)
    (o : DispatchOptions) :
    (∃ gateway own, d.Causes e gateway own u.id) ∧
      ∃ gateway own,
        (Snapshot.ofParts p.table tasks).rejectedBranch? e u.id = some (gateway, own) ∧
        (∀ x, (∃ c ∈ commandsFor (.taskFinished e q) (.ofParts p.table tasks) o,
          c.branchNode? = some x) ↔ p.IsSiblingHead gateway own x) ∧
        (d.Causes e gateway own u.id ↔
          (e = .concurrentRejectCleanup → d.FirstBehindCondition u.id)) := by
  obtain ⟨gateway, own, hbranch⟩ := hd.exists_rejectedBranch hc hu he hsub tasks
  have hnamed : ∀ x, (∃ c ∈ commandsFor (.taskFinished e q) (.ofParts p.table tasks) o,
      c.branchNode? = some x) ↔ p.IsSiblingHead gateway own x := by
    intro x
    rw [← hnode] at hbranch
    exact branchNode?_cleanup_iff (hd.nodup_ids hc) he hrejected hbranch o
  rcases (hd.mem_nodes_iff hc).mp hu with ⟨n, hn, hl⟩ | ⟨n, -, s, -, rfl⟩
  · obtain ⟨hkind, hevents⟩ := Blueprint.cleanup_of_subscribes hl he hsub
    have hlow := Blueprint.lowers_of_lower hl
    rw [hlow.id] at hbranch ⊢
    refine ⟨exists_causes_of_mem hd.distinct hevents, gateway, own, hbranch, hnamed, ?_⟩
    cases e with
    | concurrentRejectCleanup =>
      have hplain : n.kind.isConcurrent = false := by
        rw [hkind]
        rfl
      rw [hd.causes_concurrentRejectCleanup_iff hc hn hplain hbranch]
      exact ⟨fun hbehind _ => hbehind, fun hbehind => hbehind rfl⟩
    | gatewayConditionReject =>
      exact iff_of_true (hd.causes_of_gatewayConditionReject hc hu hn hlow hbranch) nofun
    | _ => cases he
  · exact absurd hsub (not_subscribesTo_proxyNode he s n.id n.kind)

/-- Behind a parallel gateway two people work at once, and a choice leads to another parallel gateway.
The first of the two works behind both gateways. -/
def crossed : Diagram where
  nodes := [⟨"S", .start, .start ""⟩, ⟨"P1", .parallel, .gateway ""⟩,
    ⟨"C", .condition, .condition ""⟩, ⟨"P2", .parallel, .gateway ""⟩,
    ⟨"U", .user, .user { approverIds := ["ann"] }⟩, ⟨"V", .user, .user { approverIds := ["bob"] }⟩,
    ⟨"W", .user, .user { approverIds := ["cat"] }⟩, ⟨"J", .inclusion, .gateway ""⟩,
    ⟨"E", .finish, .finish ""⟩]
  edges := [⟨"e1", "S", "P1", {}⟩, ⟨"e2", "P1", "U", {}⟩, ⟨"e3", "P1", "V", {}⟩,
    ⟨"e4", "P1", "C", {}⟩, ⟨"e5", "C", "P2", {}⟩, ⟨"e6", "P2", "U", {}⟩, ⟨"e7", "P2", "W", {}⟩,
    ⟨"e8", "U", "J", {}⟩, ⟨"e9", "V", "J", {}⟩, ⟨"e10", "W", "J", {}⟩, ⟨"e11", "J", "E", {}⟩]

/-- A task at a node that its approver rejected. -/
def rejectedAt (node : String) : Task :=
  ⟨"t1", "inst-1", node, "b1", "ann", .rejected, true, false, "no"⟩

/-- The person behind one gateway rejects, and the branches of that gateway are closed. -/
theorem cleanup_acts_on_crossed :
    ∃ gateway own,
      (Snapshot.ofParts crossed.compiled.table [rejectedAt "W"]).rejectedBranch?
        .concurrentRejectCleanup "W" = some (gateway, own) ∧
      (∀ x, (∃ c ∈ commandsFor (.taskFinished .concurrentRejectCleanup (rejectedAt "W"))
          (.ofParts crossed.compiled.table [rejectedAt "W"]) {}, c.branchNode? = some x) ↔
        crossed.compiled.IsSiblingHead gateway own x) ∧
      crossed.Causes .concurrentRejectCleanup gateway own "W" := by
  have hd : crossed.Unambiguous := by decide
  have hc : crossed.compile {} "two" = .ok crossed.compiled := rfl
  obtain ⟨u, hu, hid, hsub⟩ : ∃ u ∈ crossed.compiled.nodes, u.id = "W" ∧
      u.subscribesTo .concurrentRejectCleanup = true := by decide
  have hnode : ((Snapshot.ofParts crossed.compiled.table [rejectedAt "W"]).current
      (rejectedAt "W")).nodeId = u.id := hid.symm ▸ rfl
  obtain ⟨-, gateway, own, hbranch, hnamed, hcauses⟩ :=
    cleanup_acts_on hd hc hu rfl hsub hnode rfl {}
  rw [hid] at hbranch hcauses
  refine ⟨gateway, own, hbranch, hnamed, hcauses.mpr fun _ => ⟨"P2", ?_, "C", ?_⟩⟩
  · decide
  · decide

/-- The person behind both gateways rejects, and the branches of the wrong one are closed: the step
subscribes for the gateway behind the choice, and the other one is drawn first. -/
theorem wrong_branches_closed :
    ¬ ∀ (d : Diagram) (options : CompilerOptions) (name : String) (p : ProcessDefinition),
      d.Unambiguous → d.compile options name = .ok p →
        ∀ u ∈ p.nodes, ∀ e : EventName, e.isCleanup = true → u.subscribesTo e = true →
          ∀ (tasks : List Task) (q : Task) (o : DispatchOptions),
            ((Snapshot.ofParts p.table tasks).current q).nodeId = u.id →
            ((Snapshot.ofParts p.table tasks).current q).isRejected = true →
            ∃ gateway own, d.Causes e gateway own u.id ∧
              ∀ x, (∃ c ∈ commandsFor (.taskFinished e q) (.ofParts p.table tasks) o,
                c.branchNode? = some x) ↔ p.IsSiblingHead gateway own x := by
  intro h
  have hd : crossed.Unambiguous := by decide
  have hc : crossed.compile {} "two" = .ok crossed.compiled := rfl
  obtain ⟨u, hu, hid, hsub⟩ : ∃ u ∈ crossed.compiled.nodes, u.id = "U" ∧
      u.subscribesTo .concurrentRejectCleanup = true := by decide
  have hnode : ((Snapshot.ofParts crossed.compiled.table [rejectedAt "U"]).current
      (rejectedAt "U")).nodeId = u.id := hid.symm ▸ rfl
  obtain ⟨gateway, own, ⟨rfl, -, c, hcondition⟩, hnamed⟩ :=
    h crossed {} "two" _ hd hc u hu _ rfl hsub [rejectedAt "U"] (rejectedAt "U") {} hnode rfl
  -- only one gateway stands behind a condition
  have hgateway : gateway = "P2" := by
    obtain ⟨edge, hedge, rfl, rfl⟩ := hcondition.1.1
    have honly : ∀ e ∈ crossed.edges,
        (crossed.kindOf? e.source).any (· == .condition) = true → e.target = "P2" := by decide
    exact honly edge hedge hcondition.2
  -- a branch of the other one is closed
  have hclosed : ∃ c ∈ commandsFor (.taskFinished .concurrentRejectCleanup (rejectedAt "U"))
      (.ofParts crossed.compiled.table [rejectedAt "U"]) {}, c.branchNode? = some "V" := by decide
  have hhead := (hnamed "V").mp hclosed
  rw [hgateway, hid] at hhead
  exact absurd hhead (by decide)

end Diagram

end ApprovalFlow
