import ApprovalFlow.Proofs.Dispatch.Commands
import ApprovalFlow.Proofs.Dispatch.Lookup

/-!
# Lists of commands that fit together

The engine carries out the commands of a decision one by one, and does not compare them. So a list
must not close one branch twice, or close it at a node that does not wait for it, or give some tasks
another status than the branch. None of this is checked anywhere: it follows from how nodes are
found and from the three shapes that a decision can have. Definitions may be written by hand, with
cycles, with gateways that list themselves, and with heads that are gateways or stand on several
branches.

- `ProcessDefinition.AwaitsFrom`: the branches that a gateway waits for.
- `ProcessDefinition.HeadsOwnBranch`, `Snapshot.headsOwnBranch_of_rejectedBranch?`: **where a cleanup
  finds the branch of the rejected task.**
- `closedPairs_closeBatch`, `closedPairs_closeSibling`: the branches that are closed, in order.
- `Snapshot.FitTogether`, `Snapshot.commands_fit_together`: **the commands of every decision fit the
  definition and each other.**
-/

namespace ApprovalFlow

/-! ## Branches in a definition -/

namespace ProcessDefinition

/-- Does a parallel or inclusion gateway of the id wait for a branch that ends at the node? -/
def AwaitsFrom (p : ProcessDefinition) (gateway node : String) : Prop :=
  ∃ g ∈ p.nodes, g.id = gateway ∧ g.isConcurrentJoin = true ∧ node ∈ g.predecessorIds

/-- Does the branch of a task that was rejected at the node start at `own`? It is the node itself or,
for a condition behind a gateway, a condition right before the node. -/
structure HeadsOwnBranch (p : ProcessDefinition) (e : EventName) (node gateway own : String) :
    Prop where
  joins : ∃ g ∈ p.nodes, g.id = gateway ∧ g.isConcurrentJoin = true
  /-- The branch starts behind the gateway. -/
  behind : ∃ m ∈ p.nodes, m.id = own ∧ gateway ∈ m.predecessorIds
  leads : if e = .gatewayConditionReject then
      (∃ c ∈ p.nodes, c.id = own ∧ c.type = .gateway ∧ c.isConcurrentJoin = false) ∧
        ∃ n ∈ p.nodes, n.id = node ∧ own ∈ n.predecessorIds
    else own = node

end ProcessDefinition

/-! ## Branches that are closed -/

/-- The gateway and the node whose branch the command closes. -/
def Command.closedPair? : Command → Option (String × String)
  | .closeBranch gateway predecessor _ _ => some (gateway, predecessor)
  | .finishPending .. | .spawnAutoPass _ | .forward _ => none

theorem closedPair?_of_untouched {c : Command} (h : c.touches = false) : c.closedPair? = none := by
  cases c with
  | closeBranch => cases h
  | _ => rfl

theorem closedPairs_closeBatch (t : Task) (gateways : List String) (outcome : BranchOutcome)
    (comment : String) (pending : Nat) :
    (closeBatch t gateways outcome comment pending).filterMap Command.closedPair? =
      gateways.map fun g => (g, t.nodeId) := by
  rw [filterMap_closeBatch _ fun _ _ _ _ => rfl, ← List.filterMap_eq_map]
  rfl

theorem closedPairs_closeSibling (s : Snapshot) (o : DispatchOptions) (head : String) :
    (closeSibling s o head).filterMap Command.closedPair? =
      (s.joinsAfter head none).map fun g => (g, head) := by
  unfold closeSibling
  rw [List.filterMap_cons_none rfl, List.filterMap_map, ← List.filterMap_eq_map]
  rfl

namespace Snapshot

variable {p : ProcessDefinition} {tasks : List Task} {o : DispatchOptions} {event : EngineEvent}

/-- A join after a node waits for it. -/
theorem awaitsFrom_of_mem_joinsAfter {node gateway : String} {policy : Option JoinPolicy}
    (h : gateway ∈ (ofParts p.table tasks).joinsAfter node policy) : p.AwaitsFrom gateway node := by
  obtain ⟨g, hfind, hjoin, -, hlists⟩ := mem_joinsAfter_iff_find?.mp h
  obtain ⟨hg, hid⟩ := NodeTable.of_find?_ofList hfind
  exact ⟨g, hg, hid, hjoin, hlists⟩

/-- The joins after one node, paired with it, differ. -/
theorem nodup_pairs (p : ProcessDefinition) (tasks : List Task) (node : String)
    (policy : Option JoinPolicy) :
    (((ofParts p.table tasks).joinsAfter node policy).map fun g => (g, node)).Nodup := by
  have hjoins : ((ofParts p.table tasks).joinsAfter node policy).Nodup :=
    (joinsAfter_pairwise p.nodes tasks node policy).imp fun hlt => ne_of_lt hlt
  exact hjoins.map fun g g' heq => (Prod.mk.inj heq).1

/-- A branch is closed only at a gateway that waits for it. -/
theorem awaitsFrom_of_mem {gateway node comment : String} {outcome : BranchOutcome}
    (h : .closeBranch gateway node outcome comment ∈
      commandsFor event (ofParts p.table tasks) o) : p.AwaitsFrom gateway node := by
  rcases commandsFor_cases event (ofParts p.table tasks) o with hnone |
    ⟨e, q, policy, outcome', -, -, hcommands⟩ | ⟨e, q, gateway', own, -, -, -, hcommands⟩
  · exact absurd h (not_mem_of_untouched hnone rfl)
  · rw [hcommands] at h
    rcases mem_closeBatch_iff.mp h with ⟨g, hg, heq⟩ | ⟨-, heq⟩
    · injection heq with hgateway hnode
      rw [hgateway, hnode]
      exact awaitsFrom_of_mem_joinsAfter hg
    · cases heq
  · rw [hcommands] at h
    obtain ⟨head, -, h⟩ := List.mem_flatMap.mp h
    rcases mem_closeSibling_iff.mp h with heq | ⟨g, hg, heq⟩
    · cases heq
    · injection heq with hgateway hnode
      rw [hgateway, hnode]
      exact awaitsFrom_of_mem_joinsAfter hg

/-- **No branch is closed twice at one gateway.** -/
theorem nodup_closedPairs (p : ProcessDefinition) (tasks : List Task) (o : DispatchOptions)
    (event : EngineEvent) :
    ((commandsFor event (ofParts p.table tasks) o).filterMap Command.closedPair?).Nodup := by
  rcases commandsFor_cases event (ofParts p.table tasks) o with hnone |
    ⟨e, q, policy, outcome, -, -, hcommands⟩ | ⟨e, q, gateway, own, -, -, -, hcommands⟩
  · have hempty : (commandsFor event (ofParts p.table tasks) o).filterMap Command.closedPair? = [] :=
      List.filterMap_eq_nil_iff.mpr fun c hc => closedPair?_of_untouched (hnone c hc)
    rw [hempty]
    exact .nil
  · rw [hcommands, closedPairs_closeBatch]
    exact nodup_pairs p tasks _ _
  · rw [hcommands, List.filterMap_flatMap]
    simp only [closedPairs_closeSibling]
    have hheads : (((ofParts p.table tasks).branchHeads gateway).filter fun h => h != own).Nodup :=
      ((branchHeads_pairwise p.nodes tasks gateway).imp fun hlt => ne_of_lt hlt).filter _
    refine List.nodup_flatMap.mpr ⟨fun head _ => nodup_pairs p tasks head none,
      hheads.imp fun {head head'} hne pair hpair hpair' => hne ?_⟩
    -- a pair tells the head that it was closed for
    obtain ⟨g, -, rfl⟩ := List.mem_map.mp hpair
    obtain ⟨g', -, heq⟩ := List.mem_map.mp hpair'
    exact (Prod.mk.inj heq).2.symm

/-! ## The branch of the rejected task -/

theorem of_concurrentParent? {node gateway : String}
    (h : (ofParts p.table tasks).concurrentParent? node = some gateway) :
    (∃ g ∈ p.nodes, g.id = gateway ∧ g.isConcurrentJoin = true) ∧
      ∃ n ∈ p.nodes, n.id = node ∧ gateway ∈ n.predecessorIds := by
  obtain ⟨g, hfind, rfl⟩ := Option.map_eq_some_iff.mp h
  obtain ⟨hg, hlists⟩ := of_mem_parents (List.mem_of_find?_eq_some hfind)
  exact ⟨⟨g, hg, rfl, List.find?_some hfind⟩, hlists⟩

/-- **Where a cleanup finds a branch, it is the one of the rejected task.** -/
theorem headsOwnBranch_of_rejectedBranch? {e : EventName} {node gateway own : String}
    (h : (ofParts p.table tasks).rejectedBranch? e node = some (gateway, own)) :
    p.HeadsOwnBranch e node gateway own := by
  unfold rejectedBranch? at h
  split at h
  · obtain ⟨c, hc, hmap⟩ := List.exists_of_findSome?_eq_some h
    obtain ⟨g, hgateway, heq⟩ := Option.map_eq_some_iff.mp hmap
    obtain ⟨rfl, rfl⟩ := Prod.mk.inj heq
    obtain ⟨hparent, hkind⟩ := List.mem_filter.mp hc
    obtain ⟨hc, hlists⟩ := of_mem_parents hparent
    obtain ⟨hgate, hplain⟩ := Bool.and_eq_true_iff.mp hkind
    obtain ⟨hg, hlisted⟩ := of_concurrentParent? hgateway
    refine ⟨hg, hlisted, ?_⟩
    rw [if_pos rfl]
    exact ⟨⟨c, hc, rfl, beq_iff_eq.mp hgate, by simpa using hplain⟩, hlists⟩
  · rename_i he
    obtain ⟨g, hgateway, heq⟩ := Option.map_eq_some_iff.mp h
    obtain ⟨rfl, rfl⟩ := Prod.mk.inj heq
    obtain ⟨hg, hlisted⟩ := of_concurrentParent? hgateway
    refine ⟨hg, hlisted, ?_⟩
    rw [if_neg he]

/-- A cleanup that does anything has found the branch of the rejected task, and leaves it alone. -/
theorem apart_of_isCleanup {e : EventName} {q : Task} (he : e.isCleanup = true)
    (hbusy : commandsFor (.taskFinished e q) (ofParts p.table tasks) o ≠ []) :
    ∃ gateway own, (ofParts p.table tasks).rejectedBranch? e
          ((ofParts p.table tasks).current q).nodeId = some (gateway, own) ∧
        ∀ c ∈ commandsFor (.taskFinished e q) (ofParts p.table tasks) o,
          c.branchNode? ≠ some own := by
  have hcleanup : commandsFor (.taskFinished e q) (ofParts p.table tasks) o =
      decideRejectCleanup e ((ofParts p.table tasks).current q) (ofParts p.table tasks) o :=
    decideTaskFinished_of_isCleanup he
  rcases decideRejectCleanup_cases e ((ofParts p.table tasks).current q) (ofParts p.table tasks) o
    with hnone | ⟨gateway, own, hbranch, hcommands⟩
  · exact absurd (hcleanup.trans hnone) hbusy
  · refine ⟨gateway, own, hbranch, fun c hc hown => ?_⟩
    rw [hcleanup, hcommands] at hc
    obtain ⟨head, hhead, hc⟩ := List.mem_flatMap.mp hc
    rw [branchNode?_of_mem_closeSibling hc] at hown
    exact bne_iff_ne.mp (List.mem_filter.mp hhead).2 (Option.some.inj hown)

/-! ## All commands of a decision -/

/-- Do the commands that answer an event fit the definition and each other? -/
structure FitTogether (p : ProcessDefinition) (tasks : List Task) (event : EngineEvent)
    (commands : List Command) : Prop where
  /-- A branch is closed at a parallel or inclusion gateway that waits for it. -/
  awaited : ∀ gateway node outcome comment, .closeBranch gateway node outcome comment ∈ commands →
    p.AwaitsFrom gateway node
  /-- No branch is closed twice at one gateway. -/
  once : (commands.filterMap Command.closedPair?).Nodup
  /-- There is one outcome for all branches, and its status for all tasks. -/
  alike : ∃ outcome : BranchOutcome,
    (∀ e q, event = .taskFinished e q → e.isCleanup = true → outcome = .rejected) ∧
      (∀ gateway node outcome' comment, .closeBranch gateway node outcome' comment ∈ commands →
        outcome' = outcome) ∧
      ∀ node batch status comment, .finishPending node batch status comment ∈ commands →
        status = outcome.taskStatus
  /-- Only a cleanup closes tasks of all batches. -/
  whole : ∀ node status comment, .finishPending node none status comment ∈ commands →
    ∃ e q, event = .taskFinished e q ∧ e.isCleanup = true
  /-- A cleanup leaves the branch of the rejected task alone. -/
  apart : ∀ e q, event = .taskFinished e q → e.isCleanup = true → commands ≠ [] →
    ∃ gateway own, (ofParts p.table tasks).rejectedBranch? e
          ((ofParts p.table tasks).current q).nodeId = some (gateway, own) ∧
      p.HeadsOwnBranch e ((ofParts p.table tasks).current q).nodeId gateway own ∧
      ∀ c ∈ commands, c.branchNode? ≠ some own

/-- **The commands of every decision fit the definition and each other**, whatever the event, the
tasks and the options, and whatever the definition, even if ids of nodes repeat. -/
theorem commands_fit_together (p : ProcessDefinition) (tasks : List Task) (event : EngineEvent)
    (o : DispatchOptions) :
    FitTogether p tasks event (commandsFor event (ofParts p.table tasks) o) := by
  constructor
  case awaited =>
    intro gateway node outcome comment h
    exact awaitsFrom_of_mem h
  case once => exact nodup_closedPairs p tasks o event
  case alike => exact exists_outcome event (ofParts p.table tasks) o
  case whole =>
    intro node status comment h
    exact isCleanup_of_finishPending_mem h
  case apart =>
    rintro e q rfl he hbusy
    obtain ⟨gateway, own, hbranch, hapart⟩ := apart_of_isCleanup he hbusy
    exact ⟨gateway, own, hbranch, headsOwnBranch_of_rejectedBranch? hbranch, hapart⟩

end Snapshot

end ApprovalFlow
