import ApprovalFlow.Proofs.Dispatch.Lookup
import ApprovalFlow.Proofs.Dispatch.Order
import ApprovalFlow.Proofs.Dispatch.Verdict

/-!
# The rule by which branches are closed

When a task finishes in front of gateways, the dispatcher looks at counts that were folded from the
tasks, at a table in which nodes with one id are one, and at its own copy of the task. What comes of
it can be said without any of these, on the tasks as they are listed and the nodes that the table
has. So the rule is stated on these, and each thing that the dispatcher looks at is shown to stand
for what the rule says.

- `Snapshot.IsSeenAs`: the task that is judged, for the one that was reported.
- `NodeTable.Joins`, `NodeTable.mem_joinsAfter_iff_joins`: the gateways, whether or not ids of nodes
  repeat.
- `Snapshot.NeedsAll`, `Snapshot.AllAgree`: where everybody must agree, and when they do.
- `Snapshot.closing`: the commands that close a branch.
- `Snapshot.closed_by_rule`: **a completion event is answered by the rule**, command by command.
-/

namespace ApprovalFlow

/-! ## Gateways -/

namespace NodeTable

/-- Does the table have a gateway of the id that joins by the policy and lists the node? -/
def Joins (nodes : NodeTable) (policy : JoinPolicy) (node gateway : String) : Prop :=
  ∃ g, nodes.find? gateway = some g ∧ g.type = .gateway ∧ g.joinPolicy? = some policy ∧
    node ∈ g.predecessorIds

/-- The joins after a node are the gateways that list it. -/
theorem mem_joinsAfter_iff_joins {nodes : List ProcessNode} {tasks : List Task} {policy : JoinPolicy}
    (hpolicy : policy.isConcurrent = true) {node gateway : String} :
    gateway ∈ (Snapshot.ofParts (ofList nodes) tasks).joinsAfter node (some policy) ↔
      (ofList nodes).Joins policy node gateway := by
  rw [Snapshot.mem_joinsAfter_iff_find?]
  refine exists_congr fun g => and_congr_right fun _ => ?_
  unfold ProcessNode.isConcurrentJoin
  rw [Bool.and_eq_true, beq_iff_eq]
  constructor
  · rintro ⟨⟨hgate, -⟩, hjoins, hlists⟩
    exact ⟨hgate, hjoins.resolve_left nofun, hlists⟩
  · rintro ⟨hgate, hjoins, hlists⟩
    have hconcurrent : (g.joinPolicy?.map JoinPolicy.isConcurrent).getD false = true := by
      rw [hjoins]
      exact hpolicy
    exact ⟨⟨hgate, hconcurrent⟩, .inr hjoins, hlists⟩

end NodeTable

/-- The gateways of a completion event join several branches. -/
theorem EventName.isConcurrent_of_joinPolicy? {e : EventName} {policy : JoinPolicy}
    (he : e.joinPolicy? = some policy) : policy.isConcurrent = true := by
  cases e with
  | taskParallelPass | taskInclusionPass =>
    obtain rfl := Option.some.inj he
    rfl
  | _ => cases he

namespace Snapshot

variable {d : ProcessDefinition} {tasks : List Task} {policy : JoinPolicy} {q t : Task}

/-! ## Tasks -/

/-- Is the second task what is known of the first one: the task of the list that has its id, or
itself if there is none? -/
def IsSeenAs (tasks : List Task) (q t : Task) : Prop :=
  (t ∈ tasks ∧ t.id = q.id) ∨ (t = q ∧ ∀ u ∈ tasks, u.id ≠ q.id)

theorem current_eq_of_isSeenAs (table : NodeTable) (hids : (tasks.map (·.id)).Nodup)
    (ht : IsSeenAs tasks q t) : (ofParts table tasks).current q = t := by
  show (tasks.find? fun u => u.id == q.id).getD q = t
  rcases ht with hknown | ⟨rfl, hunknown⟩
  · rw [(Task.find?_id_iff hids).mpr hknown, Option.getD_some]
  · have hnone : (tasks.find? fun u => u.id == t.id) = none :=
      List.find?_eq_none.mpr fun u hu hid => hunknown u hu (beq_iff_eq.mp hid)
    rw [hnone, Option.getD_none]

/-- Must everybody agree who has a task beside this one? -/
def NeedsAll (nodes : NodeTable) (t : Task) : Prop :=
  t.cosigned = true ∨ (nodes.find? t.nodeId).any (·.cosigned) = true

instance (nodes : NodeTable) (t : Task) : Decidable (NeedsAll nodes t) :=
  inferInstanceAs (Decidable (_ ∨ _))

/-- Do they? In front of a parallel gateway nobody's task may be pending, in front of an inclusion
gateway there must be tasks and all of them passed. -/
def AllAgree (policy : JoinPolicy) (tasks : List Task) (t : Task) : Prop :=
  match policy with
  | .waitAll => ∀ u ∈ tasks, Beside t u → u.status ≠ .pending
  | .onArrival => (∃ u ∈ tasks, Beside t u) ∧ ∀ u ∈ tasks, Beside t u → u.status = .passed
  | .chainedCondition => False

instance (policy : JoinPolicy) (tasks : List Task) (t : Task) : Decidable (AllAgree policy tasks t) :=
  match policy with
  | .waitAll => inferInstanceAs (Decidable (∀ u ∈ tasks, Beside t u → u.status ≠ .pending))
  | .onArrival => inferInstanceAs (Decidable (_ ∧ ∀ u ∈ tasks, Beside t u → u.status = .passed))
  | .chainedCondition => inferInstanceAs (Decidable False)

theorem needsAll_iff (tasks : List Task) :
    (ofParts d.table tasks).needsAll t = true ↔ NeedsAll d.table t := by
  have hnode : (ofParts d.table tasks).ledger.isCosigned t.nodeId = true ↔
      (d.table.find? t.nodeId).any (·.cosigned) = true := by
    rw [Option.any_eq_true]
    exact List.contains_iff_mem.trans NodeTable.mem_ids_filter_values
  unfold needsAll NeedsAll
  rw [Bool.or_eq_true, hnode]

theorem isAgreed_iff (table : NodeTable) :
    (ofParts table tasks).isAgreed policy t = true ↔ AllAgree policy tasks t := by
  cases policy with
  | waitAll => exact isAgreed_waitAll_iff
  | onArrival => exact isAgreed_onArrival_iff
  | chainedCondition => exact Bool.false_eq_true.to_iff

/-- What lets a task close its branch as passed. -/
theorem isPassed_and_agreed_iff :
    (t.isPassed && (!(ofParts d.table tasks).needsAll t ||
        (ofParts d.table tasks).isAgreed policy t)) = true ↔
      t.finished = true ∧ t.status = .passed ∧
        (NeedsAll d.table t → AllAgree policy tasks t) := by
  unfold Task.isPassed
  rw [← needsAll_iff tasks, ← isAgreed_iff d.table]
  simp only [Bool.and_eq_true, beq_iff_eq, Bool.or_eq_true, Bool.not_eq_true', and_assoc,
    imp_iff_not_or, Bool.not_eq_true]

/-! ## Commands -/

/-- The commands that close the branch of a task's batch: at every gateway, and then the tasks that
are pending, if there are any. -/
def closing (tasks : List Task) (t : Task) (gateways : List String) (outcome : BranchOutcome)
    (comment : String) : List Command :=
  gateways.map (fun g => .closeBranch g t.nodeId outcome comment) ++
    if ∃ u ∈ tasks, Beside t u ∧ u.status = .pending then
      [.finishPending t.nodeId (some t.batch) outcome.taskStatus comment]
    else []

theorem closeBatch_eq_closing {table : NodeTable} {gateways : List String} {outcome : BranchOutcome}
    {comment : String} :
    closeBatch t gateways outcome comment
        ((ofParts table tasks).ledger.tally t.nodeId t.batch).pending =
      closing tasks t gateways outcome comment := by
  have hpending : 0 < ((ofParts table tasks).ledger.tally t.nodeId t.batch).pending ↔
      ∃ u ∈ tasks, Beside t u ∧ u.status = .pending := by
    unfold Beside
    simp only [and_assoc]
    exact Ledger.pending_pos_iff
  unfold closeBatch closing
  rw [if_congr hpending rfl rfl]

/-- **A completion event is answered by the rule.** The gateways are those that join by the policy of
the event and list the node of the task, in the order of their ids. Nothing is done if there is none
or if another batch of the node is open. Else a rejected task in the batch closes the branch as
rejected. Else the task closes it as passed if an approver passed it and everybody agrees who has
to. -/
theorem closed_by_rule {e : EventName} (he : e.joinPolicy? = some policy)
    (hids : (tasks.map (·.id)).Nodup) (ht : IsSeenAs tasks q t) (o : DispatchOptions) :
    ∃ gateways : List String, gateways.Pairwise (· < ·) ∧
      (∀ g, g ∈ gateways ↔ d.table.Joins policy t.nodeId g) ∧
      commandsFor (.taskFinished e q) (ofParts d.table tasks) o =
        if gateways = [] ∨ Reopened tasks t then []
        else if ∃ u ∈ tasks, Beside t u ∧ u.status = .rejected then
          closing tasks t gateways .rejected o.rejectComment
        else if t.finished = true ∧ t.status = .passed ∧
            (NeedsAll d.table t → AllAgree policy tasks t) then
          closing tasks t gateways .passed o.passComment
        else [] := by
  have hconcurrent := EventName.isConcurrent_of_joinPolicy? he
  refine ⟨(ofParts d.table tasks).joinsAfter t.nodeId (some policy), joinsAfter_pairwise _ _ _ _,
    fun g => NodeTable.mem_joinsAfter_iff_joins hconcurrent, ?_⟩
  show decideTaskFinished e ((ofParts d.table tasks).current q) (ofParts d.table tasks) o = _
  rw [current_eq_of_isSeenAs d.table hids ht, decideTaskFinished_eq he]
  by_cases hidle : (ofParts d.table tasks).joinsAfter t.nodeId (some policy) = [] ∨ Reopened tasks t
  · rw [verdict?_eq_none fun h => hidle.elim h.1 h.2, if_pos hidle]
  · rw [verdict?_of_answers (not_or.mp hidle), if_neg hidle]
    by_cases hrejected : ∃ u ∈ tasks, Beside t u ∧ u.status = .rejected
    · rw [if_pos hrejected, if_pos hrejected]
      exact closeBatch_eq_closing
    · rw [if_neg hrejected, if_neg hrejected, if_congr isPassed_and_agreed_iff rfl rfl]
      by_cases hpassed : t.finished = true ∧ t.status = .passed ∧
          (NeedsAll d.table t → AllAgree policy tasks t)
      · rw [if_pos hpassed, if_pos hpassed]
        exact closeBatch_eq_closing
      · rw [if_neg hpassed, if_neg hpassed]

/-- A step in front of two parallel gateways and an inclusion gateway. -/
def forked : ProcessDefinition where
  name := "forked"
  nodes := [
    { id := "U", name := "U", type := .approval },
    { id := "R", name := "R", type := .gateway, predecessorIds := ["U"],
      gateway := some { joinPolicy := .waitAll } },
    { id := "I", name := "I", type := .gateway, predecessorIds := ["U"],
      gateway := some { joinPolicy := .onArrival } },
    { id := "Q", name := "Q", type := .gateway, predecessorIds := ["U"],
      gateway := some { joinPolicy := .waitAll } }]

/-- One of two approvers passed the task, and need not wait for the other. -/
theorem closed_by_rule_forked :
    let ann : Task := ⟨"t-1", "inst-1", "U", "b", "ann", .passed, true, false, ""⟩
    let bob : Task := ⟨"t-2", "inst-1", "U", "b", "bob", .pending, false, false, ""⟩
    ∃ gateways : List String, gateways.Pairwise (· < ·) ∧
      (∀ g, g ∈ gateways ↔ forked.table.Joins .waitAll "U" g) ∧
      commandsFor (.taskFinished .taskParallelPass ann) (ofParts forked.table [ann, bob]) {} =
        closing [ann, bob] ann gateways .passed ({} : DispatchOptions).passComment := by
  intro ann bob
  have hids : ([ann, bob].map (·.id)).Nodup := by decide
  have hseen : IsSeenAs [ann, bob] ann ann := .inl ⟨List.mem_cons_self, rfl⟩
  have hpolicy : EventName.taskParallelPass.joinPolicy? = some .waitAll := rfl
  obtain ⟨gateways, hascending, hjoins, hcommands⟩ :=
    closed_by_rule (d := forked) hpolicy hids hseen {}
  refine ⟨gateways, hascending, hjoins, ?_⟩
  have hthere : "Q" ∈ gateways := (hjoins "Q").mpr ⟨_, rfl, rfl, rfl, List.mem_singleton_self _⟩
  have hbusy : ¬ (gateways = [] ∨ Reopened [ann, bob] ann) := by
    rintro (rfl | hreopened)
    · cases hthere
    · exact absurd hreopened (by decide)
  rw [hcommands, if_neg hbusy, if_neg (by decide), if_pos (by decide)]

end Snapshot

end ApprovalFlow
