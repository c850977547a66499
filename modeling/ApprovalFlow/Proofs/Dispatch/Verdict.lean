import ApprovalFlow.Dispatch.Decide
import ApprovalFlow.Proofs.Task.Ledger

/-!
# Verdicts on a finished task

A task that finishes in front of parallel or of inclusion gateways is judged by one rule. The two
differ in the gateways that they look for, and in what it takes where everybody must agree. The rule
is stated here apart from the commands that carry it out, and then on the tasks themselves.

- `EventName.joinPolicy?`: the completion events, by the policy of the gateways that they are about.
- `Snapshot.verdict?`: how the branch is closed, if it is.
- `decideTaskFinished_eq`: **a completion event is answered by closing the batch as the verdict
  says.**
- `Snapshot.verdict?_eq_rejected_iff`, `Snapshot.verdict?_eq_passed_iff`: what it takes.
-/

namespace ApprovalFlow

/-- The policy of the gateways that a completion event is about; other events have none. -/
def EventName.joinPolicy? : EventName → Option JoinPolicy
  | .taskParallelPass => some .waitAll
  | .taskInclusionPass => some .onArrival
  | .concurrentRejectCleanup | .gatewayConditionReject | .taskNodeStart | .taskNodeEnd
  | .automationStart | .notify | .notifyCC | .processEnd => none

/-- The comment with which branches of finished tasks are closed. -/
def DispatchOptions.closingComment (o : DispatchOptions) : BranchOutcome → String
  | .passed => o.passComment
  | .rejected => o.rejectComment

namespace Snapshot

/-- Must everybody agree who has a task beside this one? -/
def needsAll (s : Snapshot) (t : Task) : Bool := t.cosigned || s.ledger.isCosigned t.nodeId

/-- Did they agree? In front of parallel gateways nobody's task may be pending, in front of
inclusion gateways everybody must have passed theirs. -/
def isAgreed (s : Snapshot) (policy : JoinPolicy) (t : Task) : Bool :=
  match policy with
  | .waitAll => (s.ledger.tally t.nodeId t.batch).pending == 0
  | .onArrival => (s.ledger.tally t.nodeId t.batch).allPassed
  | .chainedCondition => false

/-- How the branch of a finished task is closed at the gateways that join by the policy. -/
def verdict? (s : Snapshot) (policy : JoinPolicy) (t : Task) : Option BranchOutcome :=
  if (s.joinsAfter t.nodeId (some policy)).isEmpty || s.ledger.hasOtherPending t.nodeId t.batch then
    none
  else if 0 < (s.ledger.tally t.nodeId t.batch).rejected then some .rejected
  else if t.isPassed && (!s.needsAll t || s.isAgreed policy t) then some .passed
  else none

end Snapshot

/-! ## The commands of a verdict -/

/-- The rule with its commands taken apart from it. -/
theorem decidePass_eq (policy : JoinPolicy) (settled : Tally → Bool) (t : Task) (s : Snapshot)
    (o : DispatchOptions) (hsettled : settled (s.ledger.tally t.nodeId t.batch) =
      (t.isPassed && (!s.needsAll t || s.isAgreed policy t))) :
    decidePass policy settled t s o =
      match s.verdict? policy t with
      | none => []
      | some outcome => closeBatch t (s.joinsAfter t.nodeId (some policy)) outcome
          (o.closingComment outcome) (s.ledger.tally t.nodeId t.batch).pending := by
  unfold decidePass Snapshot.verdict?
  dsimp only
  rw [hsettled]
  cases (s.joinsAfter t.nodeId (some policy)).isEmpty with
  | true => rfl
  | false =>
    cases s.ledger.hasOtherPending t.nodeId t.batch with
    | true => rfl
    | false =>
      by_cases hrejected : 0 < (s.ledger.tally t.nodeId t.batch).rejected
      · simp only [hrejected, if_true, Bool.or_self, Bool.false_eq_true, if_false]
        rfl
      · simp only [hrejected, if_false, Bool.or_self, Bool.false_eq_true]
        cases t.isPassed && (!s.needsAll t || s.isAgreed policy t) <;> rfl

/-- **A completion event is answered by closing the batch as the verdict says.** -/
theorem decideTaskFinished_eq {e : EventName} {policy : JoinPolicy}
    (he : e.joinPolicy? = some policy) (t : Task) (s : Snapshot) (o : DispatchOptions) :
    decideTaskFinished e t s o =
      match s.verdict? policy t with
      | none => []
      | some outcome => closeBatch t (s.joinsAfter t.nodeId (some policy)) outcome
          (o.closingComment outcome) (s.ledger.tally t.nodeId t.batch).pending := by
  cases e with
  | taskParallelPass =>
    obtain rfl := Option.some.inj he
    exact decidePass_eq .waitAll (fun tally => t.isPassed &&
      (!(t.cosigned || s.ledger.isCosigned t.nodeId) || tally.pending == 0)) t s o rfl
  | taskInclusionPass =>
    obtain rfl := Option.some.inj he
    exact decidePass_eq .onArrival (fun _ => s.ledger.isSettledBy t) t s o rfl
  | _ => cases he

/-! ## What a verdict takes -/

namespace Snapshot

variable {nodes : NodeTable} {tasks : List Task} {policy : JoinPolicy} {t : Task}

/-- If the snapshot has a task with the id, its copy of the task is the one that the id finds. -/
theorem find?_current (nodes : NodeTable) {q : Task} (h : ∃ u ∈ tasks, u.id = q.id) :
    tasks.find? (fun u => u.id == q.id) = some ((ofParts nodes tasks).current q) := by
  obtain ⟨u, hu, hid⟩ := h
  have hsome : (tasks.find? fun u => u.id == q.id).isSome :=
    List.find?_isSome.mpr ⟨u, hu, beq_iff_eq.mpr hid⟩
  obtain ⟨t, ht⟩ := Option.isSome_iff_exists.mp hsome
  have hcurrent : (ofParts nodes tasks).current q = t := by
    show (tasks.find? fun u => u.id == q.id).getD q = t
    rw [ht, Option.getD_some]
  rw [hcurrent]
  exact ht

/-- Does another task belong to the batch of the task? -/
def Beside (t u : Task) : Prop := u.nodeId = t.nodeId ∧ u.batch = t.batch

instance (t u : Task) : Decidable (Beside t u) := inferInstanceAs (Decidable (_ ∧ _))

theorem isAgreed_waitAll_iff :
    (ofParts nodes tasks).isAgreed .waitAll t = true ↔
      ∀ u ∈ tasks, Beside t u → u.status ≠ .pending := by
  show (((Ledger.ofTasks nodes tasks).tally t.nodeId t.batch).pending == 0) = true ↔ _
  rw [beq_iff_eq, ← Nat.le_zero, ← not_lt, Ledger.pending_pos_iff]
  constructor
  · intro h u hu hbeside hpending
    exact h ⟨u, hu, hbeside.1, hbeside.2, hpending⟩
  · rintro h ⟨u, hu, hnode, hbatch, hpending⟩
    exact h u hu ⟨hnode, hbatch⟩ hpending

theorem isAgreed_onArrival_iff :
    (ofParts nodes tasks).isAgreed .onArrival t = true ↔
      (∃ u ∈ tasks, Beside t u) ∧ ∀ u ∈ tasks, Beside t u → u.status = .passed := by
  show ((Ledger.ofTasks nodes tasks).tally t.nodeId t.batch).allPassed = true ↔ _
  rw [Ledger.allPassed_iff]
  unfold Beside
  simp only [and_imp]

/-- Is another batch open at the node of the task? -/
def Reopened (tasks : List Task) (t : Task) : Prop :=
  ∃ u ∈ tasks, u.nodeId = t.nodeId ∧ u.batch ≠ t.batch ∧ u.status = .pending

instance (tasks : List Task) (t : Task) : Decidable (Reopened tasks t) :=
  inferInstanceAs (Decidable (∃ u ∈ tasks, _))

/-- Is there a gateway to close a branch at, and is the batch of the task the only open one? -/
def Answers (s : Snapshot) (policy : JoinPolicy) (t : Task) : Prop :=
  s.joinsAfter t.nodeId (some policy) ≠ [] ∧ ¬ Reopened s.tasks t

theorem verdict?_eq_none (h : ¬ (ofParts nodes tasks).Answers policy t) :
    (ofParts nodes tasks).verdict? policy t = none := by
  unfold verdict?
  rw [if_pos]
  rw [Bool.or_eq_true, List.isEmpty_iff]
  by_contra hnot
  rw [not_or] at hnot
  exact h ⟨hnot.1, mt Ledger.hasOtherPending_iff.mpr hnot.2⟩

theorem verdict?_of_answers (h : (ofParts nodes tasks).Answers policy t) :
    (ofParts nodes tasks).verdict? policy t =
      if ∃ u ∈ tasks, Beside t u ∧ u.status = .rejected then some .rejected
      else if t.isPassed && (!(ofParts nodes tasks).needsAll t ||
        (ofParts nodes tasks).isAgreed policy t) then some .passed
      else none := by
  have hrejected : 0 < ((ofParts nodes tasks).ledger.tally t.nodeId t.batch).rejected ↔
      ∃ u ∈ tasks, Beside t u ∧ u.status = .rejected := by
    unfold Beside
    simp only [and_assoc]
    exact Ledger.rejected_pos_iff
  unfold verdict?
  rw [if_neg]
  · simp only [hrejected]
  · rw [Bool.or_eq_true, List.isEmpty_iff, not_or]
    exact ⟨h.1, mt Ledger.hasOtherPending_iff.mp h.2⟩

/-- **A branch is closed as rejected iff a task of the batch was rejected**, provided that there is a
gateway and no other batch is open. -/
theorem verdict?_eq_rejected_iff :
    (ofParts nodes tasks).verdict? policy t = some .rejected ↔
      (ofParts nodes tasks).Answers policy t ∧ ∃ u ∈ tasks, Beside t u ∧ u.status = .rejected := by
  by_cases h : (ofParts nodes tasks).Answers policy t
  · rw [verdict?_of_answers h]
    constructor
    · intro hverdict
      split at hverdict
      · rename_i hrejected
        exact ⟨h, hrejected⟩
      · split at hverdict <;> cases hverdict
    · intro hrejected
      exact if_pos hrejected.2
  · rw [verdict?_eq_none h]
    exact ⟨nofun, fun hrejected => absurd hrejected.1 h⟩

/-- **A branch is closed as passed iff an approver passed the task, no task of the batch was
rejected, and everybody agreed who had to.** -/
theorem verdict?_eq_passed_iff :
    (ofParts nodes tasks).verdict? policy t = some .passed ↔
      (ofParts nodes tasks).Answers policy t ∧
        (∀ u ∈ tasks, Beside t u → u.status ≠ .rejected) ∧ t.isPassed = true ∧
          ((ofParts nodes tasks).needsAll t = true →
            (ofParts nodes tasks).isAgreed policy t = true) := by
  by_cases h : (ofParts nodes tasks).Answers policy t
  · rw [verdict?_of_answers h]
    constructor
    · intro hverdict
      split at hverdict
      · cases hverdict
      rename_i hrejected
      split at hverdict
      · rename_i hrule
        rw [Bool.and_eq_true, Bool.or_eq_true, Bool.not_eq_true'] at hrule
        refine ⟨h, fun u hu hbeside hstatus => hrejected ⟨u, hu, hbeside, hstatus⟩, hrule.1,
          fun hall => ?_⟩
        rcases hrule.2 with hnot | hagreed
        · rw [hall] at hnot
          cases hnot
        · exact hagreed
      · cases hverdict
    · rintro ⟨-, hnone, hpassed, hagreed⟩
      have hrejected : ¬ ∃ u ∈ tasks, Beside t u ∧ u.status = .rejected := by
        rintro ⟨u, hu, hbeside, hstatus⟩
        exact hnone u hu hbeside hstatus
      rw [if_neg hrejected, if_pos]
      rw [hpassed, Bool.true_and, Bool.or_eq_true, Bool.not_eq_true']
      cases hall : (ofParts nodes tasks).needsAll t with
      | true => exact .inr (hagreed hall)
      | false => exact .inl rfl
  · rw [verdict?_eq_none h]
    exact ⟨nofun, fun hpassed => absurd hpassed.1 h⟩

end Snapshot

end ApprovalFlow
