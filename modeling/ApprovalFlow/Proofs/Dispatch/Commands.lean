import ApprovalFlow.Proofs.Dispatch.Verdict

/-!
# The commands of a decision

Whatever the event, the commands of a decision have one of few shapes: a batch is closed at some
gateways, or whole branches are, or the engine is left alone. So it is enough to know which commands
are in the list.

- `Command.touches`: the commands that change the engine; `Command.branchNode?`: the node they do it
  for.
- `mem_closeBatch_iff`, `mem_closeSibling_iff`, `mem_decideRejectCleanup`: what is in the lists;
  `decideRejectCleanup_cases`: the list of a cleanup.
- `EventName.isCleanup`: the events by which a rejected task closes the branches beside its own.
- `verdict?_of_mem_passed`: who closes a branch as passed.
- `commandsFor_cases`: **a decision leaves the engine alone, closes a batch, or closes the branches
  beside the task's**.
- `exists_outcome`: **branches are closed with one outcome, and tasks with its status.**
- `commandsFor_alone`: **commands that change the engine stand alone**; else the event is handed on.
- `spawnAutoPass_mem_iff`: **a run is started just for a node that starts and that the system
  completes.**
-/

namespace ApprovalFlow

/-- Does the command change the engine? The others start a run or hand an event on. -/
def Command.touches : Command → Bool
  | .closeBranch .. | .finishPending .. => true
  | .spawnAutoPass _ | .forward _ => false

/-- The node whose tasks or whose branch the command closes. -/
def Command.branchNode? : Command → Option String
  | .closeBranch _ predecessor _ _ => some predecessor
  | .finishPending node _ _ _ => some node
  | .spawnAutoPass _ | .forward _ => none

/-- Is the event about closing the branches beside a rejected one? -/
def EventName.isCleanup : EventName → Bool
  | .concurrentRejectCleanup | .gatewayConditionReject => true
  | .taskParallelPass | .taskInclusionPass | .taskNodeStart | .taskNodeEnd | .automationStart
  | .notify | .notifyCC | .processEnd => false

variable {c : Command} {t : Task} {s : Snapshot} {o : DispatchOptions} {e : EventName}

/-- A cleanup event is answered by closing the branches beside the task's. -/
theorem decideTaskFinished_of_isCleanup (he : e.isCleanup = true) :
    decideTaskFinished e t s o = decideRejectCleanup e t s o := by
  cases e with
  | concurrentRejectCleanup | gatewayConditionReject => rfl
  | _ => cases he

/-- An event that is about no gateway is handed on. -/
theorem decideTaskFinished_of_handedOn (hpolicy : e.joinPolicy? = none)
    (he : e.isCleanup = false) :
    decideTaskFinished e t s o = [.forward ⟨e, t.instanceId, t.nodeId, some t⟩] := by
  cases e with
  | taskParallelPass | taskInclusionPass => cases hpolicy
  | concurrentRejectCleanup | gatewayConditionReject => cases he
  | _ => rfl

/-- Of a rejected task a cleanup looks only at its node, and of the others at nothing. -/
theorem decideRejectCleanup_congr {nodes : NodeTable} {tasks tasks' : List Task} {t' : Task}
    (hnode : t'.nodeId = t.nodeId) (hrejected : t'.isRejected = t.isRejected) :
    decideRejectCleanup e t' (.ofParts nodes tasks') o =
      decideRejectCleanup e t (.ofParts nodes tasks) o := by
  unfold decideRejectCleanup
  rw [hnode, hrejected]
  rfl

/-! ## What is in the lists -/

/-- Closing a batch closes the branch at every gateway, and the pending tasks if there are any. -/
theorem mem_closeBatch_iff {gateways : List String} {outcome : BranchOutcome} {comment : String}
    {pending : Nat} :
    c ∈ closeBatch t gateways outcome comment pending ↔
      (∃ g ∈ gateways, c = .closeBranch g t.nodeId outcome comment) ∨
        (0 < pending ∧ c = .finishPending t.nodeId (some t.batch) outcome.taskStatus comment) := by
  unfold closeBatch
  rw [List.mem_append, List.mem_map]
  refine or_congr (exists_congr fun g => and_congr_right fun _ => eq_comm) ?_
  by_cases hpending : 0 < pending
  · rw [if_pos hpending, List.mem_singleton]
    exact (and_iff_right hpending).symm
  · rw [if_neg hpending]
    exact ⟨fun h => absurd h List.not_mem_nil, fun h => absurd h.1 hpending⟩

/-- What is read off the commands that close branches, and not off the others, is read off the
gateways. -/
theorem filterMap_closeBatch {β : Type} (f : Command → Option β)
    (hf : ∀ node batch status comment, f (.finishPending node batch status comment) = none)
    (t : Task) (gateways : List String) (outcome : BranchOutcome) (comment : String)
    (pending : Nat) :
    (closeBatch t gateways outcome comment pending).filterMap f =
      gateways.filterMap fun g => f (.closeBranch g t.nodeId outcome comment) := by
  have hpending : (if 0 < pending then
      [.finishPending t.nodeId (some t.batch) outcome.taskStatus comment] else [] :
        List Command).filterMap f = [] := by
    split
    · exact List.filterMap_cons_none (hf ..)
    · rfl
  unfold closeBatch
  rw [List.filterMap_append, hpending, List.append_nil, List.filterMap_map]
  rfl

/-- The pending tasks are closed after the branches, all at once. -/
theorem closeBatch_before {gateways : List String} {outcome : BranchOutcome} {comment : String}
    {pending : Nat} {pre post : List Command} {node comment' : String} {batch : Option String}
    {status : TaskStatus}
    (h : closeBatch t gateways outcome comment pending =
      pre ++ .finishPending node batch status comment' :: post) :
    pre = gateways.map fun g => .closeBranch g t.nodeId outcome comment := by
  -- the command is not among those that close branches
  have hlast : ∀ rest, gateways.map (fun g => .closeBranch g t.nodeId outcome comment) ≠
      pre ++ .finishPending node batch status comment' :: rest := by
    intro rest heq
    have hmem : .finishPending node batch status comment' ∈
        gateways.map fun g => Command.closeBranch g t.nodeId outcome comment := by
      rw [heq]
      exact List.mem_append_right _ List.mem_cons_self
    obtain ⟨g, -, hg⟩ := List.mem_map.mp hmem
    cases hg
  unfold closeBatch at h
  split at h
  · rcases List.append_eq_append_iff.mp h with ⟨mid, hpre, hmid⟩ | ⟨mid, hall, hmid⟩
    · cases mid with
      | nil => rw [hpre, List.append_nil]
      | cons c mid => simp at hmid
    · cases mid with
      | nil => rw [hall, List.append_nil]
      | cons c mid =>
        obtain ⟨rfl, -⟩ := List.cons.inj hmid
        exact absurd hall (hlast mid)
  · rw [List.append_nil] at h
    exact absurd h (hlast post)

/-- Closing a branch from its head on closes all open tasks there, and the head at every gateway
after it. -/
theorem mem_closeSibling_iff {head : String} :
    c ∈ closeSibling s o head ↔
      c = .finishPending head none .systemRejected o.cleanupComment ∨
        ∃ g ∈ s.joinsAfter head none, c = .closeBranch g head .rejected o.cleanupComment := by
  unfold closeSibling
  rw [List.mem_cons, List.mem_map]
  exact or_congr_right (exists_congr fun g => and_congr_right fun _ => eq_comm)

/-- Closing a branch from its head on is about the head. -/
theorem branchNode?_of_mem_closeSibling {head : String} (h : c ∈ closeSibling s o head) :
    c.branchNode? = some head := by
  rcases mem_closeSibling_iff.mp h with rfl | ⟨g, -, rfl⟩ <;> rfl

/-- A cleanup about a rejected task closes the branches beside its own from their heads on. -/
theorem decideRejectCleanup_eq {gateway own : String} (hrejected : t.isRejected = true)
    (hbranch : s.rejectedBranch? e t.nodeId = some (gateway, own)) :
    decideRejectCleanup e t s o =
      ((s.branchHeads gateway).filter fun h => h != own).flatMap (closeSibling s o) := by
  unfold decideRejectCleanup
  rw [if_pos hrejected, hbranch]

/-- Where the task is not rejected or there is no gateway, nothing is done. -/
theorem decideRejectCleanup_cases (e : EventName) (t : Task) (s : Snapshot) (o : DispatchOptions) :
    decideRejectCleanup e t s o = [] ∨
      ∃ gateway own, s.rejectedBranch? e t.nodeId = some (gateway, own) ∧
        decideRejectCleanup e t s o =
          ((s.branchHeads gateway).filter fun h => h != own).flatMap (closeSibling s o) := by
  by_cases hrejected : t.isRejected = true
  · cases hbranch : s.rejectedBranch? e t.nodeId with
    | none =>
      left
      unfold decideRejectCleanup
      rw [if_pos hrejected, hbranch]
    | some branch => exact .inr ⟨branch.1, branch.2, rfl, decideRejectCleanup_eq hrejected hbranch⟩
  · exact .inl (if_neg hrejected)

/-- A command of a cleanup closes a branch from its head on, and all the others of that branch are
there too. -/
theorem mem_decideRejectCleanup (h : c ∈ decideRejectCleanup e t s o) :
    ∃ head, c ∈ closeSibling s o head ∧
      ∀ c' ∈ closeSibling s o head, c' ∈ decideRejectCleanup e t s o := by
  rcases decideRejectCleanup_cases e t s o with hnone | ⟨gateway, own, -, hcommands⟩
  · rw [hnone] at h
    cases h
  · rw [hcommands] at h ⊢
    obtain ⟨head, hhead, hc⟩ := List.mem_flatMap.mp h
    exact ⟨head, hc, fun c' hc' => List.mem_flatMap.mpr ⟨head, hhead, hc'⟩⟩

/-- When a node starts, a run may be started, and the event may be handed on. -/
theorem mem_decideNodeStarted {inst node : String} (h : c ∈ decideNodeStarted inst node e s) :
    c = .spawnAutoPass node ∨ c = .forward ⟨e, inst, node, none⟩ := by
  have hboth : c ∈ (if ((s.nodes.find? node).map ProcessNode.isSystemAuto).getD false then
      [.spawnAutoPass node, .forward ⟨e, inst, node, none⟩]
      else [.forward ⟨e, inst, node, none⟩] : List Command) →
        c = .spawnAutoPass node ∨ c = .forward ⟨e, inst, node, none⟩ := by
    intro h
    split at h
    · simpa using h
    · exact .inr (List.mem_singleton.mp h)
  cases e with
  | taskNodeStart => exact hboth h
  | automationStart => exact hboth h
  | notify => exact .inr (List.mem_singleton.mp h)
  | notifyCC => exact .inr (List.mem_singleton.mp h)
  | processEnd => exact .inr (List.mem_singleton.mp h)
  | _ => cases h

/-- A branch is closed as passed only by the verdict on the task of a completion event. -/
theorem verdict?_of_mem_passed {gateway node comment : String}
    (h : .closeBranch gateway node .passed comment ∈ decideTaskFinished e t s o) :
    node = t.nodeId ∧ ∃ policy, e.joinPolicy? = some policy ∧ s.verdict? policy t = some .passed := by
  cases hpolicy : e.joinPolicy? with
  | some policy =>
    rw [decideTaskFinished_eq hpolicy] at h
    cases hverdict : s.verdict? policy t with
    | none =>
      rw [hverdict] at h
      cases h
    | some outcome =>
      rw [hverdict] at h
      rcases mem_closeBatch_iff.mp h with ⟨g, -, heq⟩ | ⟨-, heq⟩
      · injection heq with _ hnode houtcome _
        exact ⟨hnode, policy, rfl, houtcome ▸ hverdict⟩
      · cases heq
  | none =>
    -- a cleanup closes branches as rejected, and the other events are handed on
    have hcleanup : ∀ e', .closeBranch gateway node .passed comment ∉ decideRejectCleanup e' t s o := by
      intro e' h'
      obtain ⟨head, hmem, -⟩ := mem_decideRejectCleanup h'
      rcases mem_closeSibling_iff.mp hmem with heq | ⟨g, -, heq⟩ <;> cases heq
    cases e with
    | taskParallelPass => cases hpolicy
    | taskInclusionPass => cases hpolicy
    | concurrentRejectCleanup => exact absurd h (hcleanup _)
    | gatewayConditionReject => exact absurd h (hcleanup _)
    | _ => cases List.mem_singleton.mp h

/-! ## The shapes of a decision -/

/-- Commands that leave the engine alone are none of the others. -/
theorem not_mem_of_untouched {l : List Command} (hnone : ∀ c ∈ l, c.touches = false)
    (hc : c.touches = true) : c ∉ l := by
  intro h
  rw [hnone c h] at hc
  cases hc

/-- **A decision leaves the engine alone, closes the batch of the task, or closes the branches beside
the task's.** -/
theorem commandsFor_cases (event : EngineEvent) (s : Snapshot) (o : DispatchOptions) :
    (∀ c ∈ commandsFor event s o, c.touches = false) ∨
      (∃ e q policy outcome, event = .taskFinished e q ∧ e.joinPolicy? = some policy ∧
        commandsFor event s o =
          closeBatch (s.current q) (s.joinsAfter (s.current q).nodeId (some policy)) outcome
            (o.closingComment outcome)
            (s.ledger.tally (s.current q).nodeId (s.current q).batch).pending) ∨
      ∃ e q gateway own, event = .taskFinished e q ∧ e.isCleanup = true ∧
        s.rejectedBranch? e (s.current q).nodeId = some (gateway, own) ∧
        commandsFor event s o =
          ((s.branchHeads gateway).filter fun h => h != own).flatMap (closeSibling s o) := by
  cases event with
  | nodeStarted inst node e =>
    refine .inl fun c hc => ?_
    rcases mem_decideNodeStarted hc with rfl | rfl <;> rfl
  | nodeEnded inst node e =>
    refine .inl fun c hc => ?_
    cases e with
    | taskNodeEnd =>
      obtain rfl := List.mem_singleton.mp hc
      rfl
    | _ => cases hc
  | taskFinished e q =>
    show (∀ c ∈ decideTaskFinished e (s.current q) s o, c.touches = false) ∨ _
    cases hpolicy : e.joinPolicy? with
    | some policy =>
      cases hverdict : s.verdict? policy (s.current q) with
      | none =>
        left
        rw [decideTaskFinished_eq hpolicy, hverdict]
        exact fun c hc => absurd hc List.not_mem_nil
      | some outcome =>
        refine .inr (.inl ⟨e, q, policy, outcome, rfl, hpolicy, ?_⟩)
        show decideTaskFinished e (s.current q) s o = _
        rw [decideTaskFinished_eq hpolicy, hverdict]
    | none =>
      cases he : e.isCleanup with
      | true =>
        rcases decideRejectCleanup_cases e (s.current q) s o with
          hnone | ⟨gateway, own, hbranch, hcommands⟩
        · left
          rw [decideTaskFinished_of_isCleanup he, hnone]
          exact fun c hc => absurd hc List.not_mem_nil
        · refine .inr (.inr ⟨e, q, gateway, own, rfl, he, hbranch, ?_⟩)
          exact (decideTaskFinished_of_isCleanup he).trans hcommands
      | false =>
        left
        rw [decideTaskFinished_of_handedOn hpolicy he]
        intro c hc
        obtain rfl := List.mem_singleton.mp hc
        rfl

/-- The statuses that the system gives are not those that approvers give or take back. -/
theorem BranchOutcome.taskStatus_ne (outcome : BranchOutcome) :
    outcome.taskStatus ≠ .pending ∧ outcome.taskStatus ≠ .rejected := by
  cases outcome <;> exact ⟨nofun, nofun⟩

/-- **A decision has one outcome for all branches that it closes**, and closes tasks with the status
of that outcome. In a cleanup it is the rejection. -/
theorem exists_outcome (event : EngineEvent) (s : Snapshot) (o : DispatchOptions) :
    ∃ outcome : BranchOutcome,
      (∀ e q, event = .taskFinished e q → e.isCleanup = true → outcome = .rejected) ∧
        (∀ gateway node outcome' comment,
          .closeBranch gateway node outcome' comment ∈ commandsFor event s o →
            outcome' = outcome) ∧
        ∀ node batch status comment,
          .finishPending node batch status comment ∈ commandsFor event s o →
            status = outcome.taskStatus := by
  rcases commandsFor_cases event s o with hnone |
    ⟨e, q, policy, outcome, rfl, hpolicy, hcommands⟩ | ⟨e, q, gateway, own, -, -, -, hcommands⟩
  · exact ⟨.rejected, fun _ _ _ _ => rfl,
      fun _ _ _ _ h => absurd h (not_mem_of_untouched hnone rfl),
      fun _ _ _ _ h => absurd h (not_mem_of_untouched hnone rfl)⟩
  · rw [hcommands]
    refine ⟨outcome, fun e' q' heq he => ?_, fun _ _ _ _ h => ?_, fun _ _ _ _ h => ?_⟩
    · -- a completion event is no cleanup
      obtain ⟨rfl, -⟩ := EngineEvent.taskFinished.inj heq
      cases e with
      | concurrentRejectCleanup | gatewayConditionReject => cases hpolicy
      | _ => cases he
    · rcases mem_closeBatch_iff.mp h with ⟨g, -, heq⟩ | ⟨-, heq⟩
      · exact (Command.closeBranch.inj heq).2.2.1
      · cases heq
    · rcases mem_closeBatch_iff.mp h with ⟨g, -, heq⟩ | ⟨-, heq⟩
      · cases heq
      · exact (Command.finishPending.inj heq).2.2.1
  · rw [hcommands]
    refine ⟨.rejected, fun _ _ _ _ => rfl, fun _ _ _ _ h => ?_, fun _ _ _ _ h => ?_⟩
    · obtain ⟨head, -, h⟩ := List.mem_flatMap.mp h
      rcases mem_closeSibling_iff.mp h with heq | ⟨g, -, heq⟩
      · cases heq
      · exact (Command.closeBranch.inj heq).2.2.1
    · obtain ⟨head, -, h⟩ := List.mem_flatMap.mp h
      rcases mem_closeSibling_iff.mp h with heq | ⟨g, -, heq⟩
      · exact (Command.finishPending.inj heq).2.2.1
      · cases heq

/-- Open tasks are closed with a status that says that it was the system. -/
theorem status_of_finishPending_mem {event : EngineEvent} {node comment : String}
    {batch : Option String} {status : TaskStatus}
    (h : .finishPending node batch status comment ∈ commandsFor event s o) :
    ∃ outcome : BranchOutcome, status = outcome.taskStatus := by
  obtain ⟨outcome, -, -, hstatus⟩ := exists_outcome event s o
  exact ⟨outcome, hstatus _ _ _ _ h⟩

/-- Only a cleanup closes the open tasks of all batches. -/
theorem isCleanup_of_finishPending_mem {event : EngineEvent} {node comment : String}
    {status : TaskStatus}
    (h : .finishPending node none status comment ∈ commandsFor event s o) :
    ∃ e q, event = .taskFinished e q ∧ e.isCleanup = true := by
  rcases commandsFor_cases event s o with hnone | ⟨e, q, policy, outcome, -, -, hcommands⟩ |
    ⟨e, q, gateway, own, rfl, he, -, -⟩
  · exact absurd h (not_mem_of_untouched hnone rfl)
  · rw [hcommands] at h
    rcases mem_closeBatch_iff.mp h with ⟨g, -, heq⟩ | ⟨-, heq⟩ <;> cases heq
  · exact ⟨e, q, rfl, he⟩

/-! ## Commands that change the engine -/

theorem touches_of_mem_closeBatch {gateways : List String} {outcome : BranchOutcome}
    {comment : String} {pending : Nat} (h : c ∈ closeBatch t gateways outcome comment pending) :
    c.touches = true := by
  rcases mem_closeBatch_iff.mp h with ⟨g, -, rfl⟩ | ⟨-, rfl⟩ <;> rfl

theorem touches_of_mem_closeSibling {head : String} (h : c ∈ closeSibling s o head) :
    c.touches = true := by
  rcases mem_closeSibling_iff.mp h with rfl | ⟨g, -, rfl⟩ <;> rfl

/-- When a task finishes, the commands change the engine, or the event is handed on. -/
theorem decideTaskFinished_touches (e : EventName) (t : Task) (s : Snapshot)
    (o : DispatchOptions) :
    (∀ c ∈ decideTaskFinished e t s o, c.touches = true) ∨
      decideTaskFinished e t s o = [.forward ⟨e, t.instanceId, t.nodeId, some t⟩] := by
  cases hpolicy : e.joinPolicy? with
  | some policy =>
    refine .inl fun c hc => ?_
    rw [decideTaskFinished_eq hpolicy] at hc
    split at hc
    · cases hc
    · exact touches_of_mem_closeBatch hc
  | none =>
    cases he : e.isCleanup with
    | true =>
      refine .inl fun c hc => ?_
      rw [decideTaskFinished_of_isCleanup he] at hc
      obtain ⟨head, hhead, -⟩ := mem_decideRejectCleanup hc
      exact touches_of_mem_closeSibling hhead
    | false => exact .inr (decideTaskFinished_of_handedOn hpolicy he)

/-- **Commands that change the engine stand alone**: else an event is handed on, by itself or right
behind the start of a run. -/
theorem commandsFor_alone (event : EngineEvent) (s : Snapshot) (o : DispatchOptions) :
    (∀ c ∈ commandsFor event s o, c.touches = true) ∨
      (∃ h, commandsFor event s o = [.forward h]) ∨
      ∃ node h, commandsFor event s o = [.spawnAutoPass node, .forward h] := by
  have hnothing : ∀ c ∈ ([] : List Command), c.touches = true := List.forall_mem_nil _
  cases event with
  | nodeStarted inst node e =>
    cases e with
    | taskNodeStart | automationStart =>
      simp only [commandsFor, decideNodeStarted]
      split
      · exact .inr (.inr ⟨_, _, rfl⟩)
      · exact .inr (.inl ⟨_, rfl⟩)
    | notify | notifyCC | processEnd => exact .inr (.inl ⟨_, rfl⟩)
    | taskNodeEnd | taskParallelPass | taskInclusionPass | concurrentRejectCleanup
    | gatewayConditionReject => exact .inl hnothing
  | nodeEnded inst node e =>
    cases e with
    | taskNodeEnd => exact .inr (.inl ⟨_, rfl⟩)
    | _ => exact .inl hnothing
  | taskFinished e q =>
    rcases decideTaskFinished_touches e (s.current q) s o with hall | hforward
    · exact .inl hall
    · exact .inr (.inl ⟨_, hforward⟩)

/-! ## Runs that are started -/

/-- When a task finishes, no run is started. -/
theorem spawnAutoPass_not_mem_decideTaskFinished {x : String} :
    .spawnAutoPass x ∉ decideTaskFinished e t s o := by
  intro h
  rcases decideTaskFinished_touches e t s o with hall | hforward
  · exact absurd (hall _ h) nofun
  · rw [hforward] at h
    cases List.mem_singleton.mp h

/-- When a node starts, a run is started if the event tells of a start and the system completes the
node. -/
theorem spawnAutoPass_mem_decideNodeStarted_iff {inst node : String} :
    .spawnAutoPass node ∈ decideNodeStarted inst node e s ↔
      (e = .taskNodeStart ∨ e = .automationStart) ∧
        ∃ n, s.nodes.find? node = some n ∧ n.isSystemAuto = true := by
  have hsystem : ((s.nodes.find? node).map ProcessNode.isSystemAuto).getD false = true ↔
      ∃ n, s.nodes.find? node = some n ∧ n.isSystemAuto = true := by
    cases s.nodes.find? node <;> simp
  rw [← hsystem]
  unfold decideNodeStarted
  cases hauto : ((s.nodes.find? node).map ProcessNode.isSystemAuto).getD false <;> cases e <;> simp

/-- **A run is started for a node just when the node starts and the system completes it.** -/
theorem spawnAutoPass_mem_iff {event : EngineEvent} {x : String} :
    .spawnAutoPass x ∈ commandsFor event s o ↔
      (∃ inst e, event = .nodeStarted inst x e ∧ (e = .taskNodeStart ∨ e = .automationStart)) ∧
        ∃ n, s.nodes.find? x = some n ∧ n.isSystemAuto = true := by
  constructor
  · intro h
    cases event with
    | nodeStarted inst node e =>
      obtain rfl : x = node := by
        rcases mem_decideNodeStarted h with heq | heq
        · exact Command.spawnAutoPass.inj heq
        · cases heq
      obtain ⟨hstart, hauto⟩ := spawnAutoPass_mem_decideNodeStarted_iff.mp h
      exact ⟨⟨inst, e, rfl, hstart⟩, hauto⟩
    | nodeEnded inst node e =>
      cases e with
      | taskNodeEnd => cases List.mem_singleton.mp h
      | _ => cases h
    | taskFinished e t => exact absurd h spawnAutoPass_not_mem_decideTaskFinished
  · rintro ⟨⟨inst, e, rfl, hstart⟩, hauto⟩
    exact spawnAutoPass_mem_decideNodeStarted_iff.mpr ⟨hstart, hauto⟩

end ApprovalFlow
