import ApprovalFlow.Proofs.Dispatch.Commands

/-!
# Where everybody must agree

At a cosigned node, or beside a cosigned task, one approver's word is not enough to close a branch
as passed. How far everybody is asked depends on the gateway that waits. In front of an inclusion
gateway every task of the batch must have been passed. In front of a parallel gateway it is only seen
to it that nobody's answer is still missing and nobody said no: a task that was revoked, or that the
system closed, counts as if its approver had agreed.

- `Snapshot.not_pending_of_isAgreed`: what both rules ask for.
- `Snapshot.cosigned_agreement`: **what is true of a batch whose branch is closed as passed where
  everybody must agree**, whichever gateway waits.
- `Snapshot.passed_without_all`: branches that are closed as passed, though one of two cosigners
  never agreed.
-/

namespace ApprovalFlow

namespace Snapshot

variable {nodes : NodeTable} {tasks : List Task} {o : DispatchOptions} {e : EventName} {q : Task}

/-- Where everybody must agree, nobody's answer is missing when the branch is closed as passed. -/
theorem not_pending_of_isAgreed {policy : JoinPolicy} {t u : Task}
    (h : (ofParts nodes tasks).isAgreed policy t = true) (hu : u ∈ tasks) (hbeside : Beside t u) :
    u.status ≠ .pending := by
  cases policy with
  | waitAll => exact isAgreed_waitAll_iff.mp h u hu hbeside
  | onArrival =>
    have hpassed := (isAgreed_onArrival_iff.mp h).2 u hu hbeside
    rw [hpassed]
    exact nofun
  | chainedCondition => cases h

/-- **Where everybody must agree, a branch is closed as passed only if nobody's answer is missing and
nobody said no.** The approver of the task agreed; every other task of the batch was passed, or it
was revoked or closed by the system. The batch is there if the snapshot knows the task, and if open
tasks are pending all of it is finished. In front of an inclusion gateway the batch is there in any
case, and all of it was passed by approvers. -/
theorem cosigned_agreement {gateway node comment : String}
    (hclosed : .closeBranch gateway node .passed comment ∈
      commandsFor (.taskFinished e q) (ofParts nodes tasks) o)
    (hall : (ofParts nodes tasks).needsAll ((ofParts nodes tasks).current q) = true) :
    let t := (ofParts nodes tasks).current q
    node = t.nodeId ∧ t.isPassed = true ∧
      (∀ u ∈ tasks, Beside t u → u.status = .passed ∨ u.status = .systemPassed ∨
        u.status = .revoked ∨ u.status = .systemRejected) ∧
      ((∃ u ∈ tasks, u.id = q.id) → ∃ u ∈ tasks, Beside t u) ∧
      ((∀ u ∈ tasks, u.finished = false → u.status = .pending) →
        ∀ u ∈ tasks, Beside t u → u.finished = true) ∧
      (e = .taskInclusionPass →
        (∃ u ∈ tasks, Beside t u) ∧ ∀ u ∈ tasks, Beside t u → u.status = .passed) := by
  intro t
  obtain ⟨hnode, policy, he, hverdict⟩ := verdict?_of_mem_passed hclosed
  obtain ⟨-, hnone, hpassed, hagreed⟩ := verdict?_eq_passed_iff.mp hverdict
  have hagreed : (ofParts nodes tasks).isAgreed policy t = true := hagreed hall
  have hpending : ∀ u ∈ tasks, Beside t u → u.status ≠ .pending := fun u hu hbeside =>
    not_pending_of_isAgreed hagreed hu hbeside
  refine ⟨hnode, hpassed, ?_, ?_, ?_, ?_⟩
  · intro u hu hbeside
    have hrejected := hnone u hu hbeside
    have hpending := hpending u hu hbeside
    cases h : u.status <;> simp_all
  · intro hknown
    exact ⟨t, List.mem_of_find?_eq_some (find?_current nodes hknown), rfl, rfl⟩
  · intro horderly u hu hbeside
    by_contra hopen
    exact hpending u hu hbeside (horderly u hu (Bool.eq_false_iff.mpr hopen))
  · rintro rfl
    obtain rfl := Option.some.inj he
    exact isAgreed_onArrival_iff.mp hagreed

/-- A step of two cosigners in front of a parallel and of an inclusion gateway. -/
def cosignedNodes : NodeTable := .ofList [
  { id := "U", name := "U", type := .approval, cosigned := true },
  { id := "Q", name := "Q", type := .gateway, predecessorIds := ["U"],
    gateway := some { joinPolicy := .waitAll } },
  { id := "I", name := "I", type := .gateway, predecessorIds := ["U"],
    gateway := some { joinPolicy := .onArrival } }]

/-- The task of one of them. -/
def cosigner (id : String) (status : TaskStatus) : Task :=
  ⟨id, "inst-1", "U", "b", id, status, true, false, ""⟩

/-- Both cosigners agreed. -/
theorem cosigned_agreement_both :
    let tasks := [cosigner "ann" .passed, cosigner "bob" .passed]
    let s := ofParts cosignedNodes tasks
    .closeBranch "I" "U" .passed ({} : DispatchOptions).passComment ∈
        commandsFor (.taskFinished .taskInclusionPass (cosigner "bob" .passed)) s {} ∧
      s.needsAll (s.current (cosigner "bob" .passed)) = true ∧
      ∀ u ∈ tasks, Beside (cosigner "bob" .passed) u → u.status = .passed := by
  intro tasks s
  have hclosed : .closeBranch "I" "U" .passed ({} : DispatchOptions).passComment ∈
      commandsFor (.taskFinished .taskInclusionPass (cosigner "bob" .passed)) s {} := by decide
  have hall : s.needsAll (s.current (cosigner "bob" .passed)) = true := by decide
  obtain ⟨-, -, -, -, -, hinclusion⟩ := cosigned_agreement hclosed hall
  exact ⟨hclosed, hall, (hinclusion rfl).2⟩

/-- One cosigner agreed. In front of the parallel gateway the branch is closed as passed though the
task of the other was revoked, and even if the snapshot has no task of the batch. In front of the
inclusion gateway the other's task is judged by its status, whether or not it is finished. -/
theorem passed_without_all :
    let ann := cosigner "ann" .passed
    let revoked := [ann, cosigner "bob" .revoked]
    let unfinished := [ann, { cosigner "bob" .passed with finished := false }]
    let closes (gateway : String) (e : EventName) (tasks : List Task) : Prop :=
      .closeBranch gateway "U" .passed ({} : DispatchOptions).passComment ∈
          commandsFor (.taskFinished e ann) (ofParts cosignedNodes tasks) {} ∧
        (ofParts cosignedNodes tasks).needsAll ((ofParts cosignedNodes tasks).current ann) = true
    (closes "Q" .taskParallelPass revoked ∧ ∃ u ∈ revoked, Beside ann u ∧ u.status ≠ .passed) ∧
      closes "Q" .taskParallelPass [] ∧
      closes "I" .taskInclusionPass unfinished ∧
        ∃ u ∈ unfinished, Beside ann u ∧ u.finished = false := by
  intro ann revoked unfinished closes
  have hrevoked : closes "Q" .taskParallelPass revoked := ⟨by decide, by decide⟩
  have hmissing : closes "Q" .taskParallelPass [] := ⟨by decide, by decide⟩
  have hunfinished : closes "I" .taskInclusionPass unfinished := ⟨by decide, by decide⟩
  exact ⟨⟨hrevoked, by decide⟩, hmissing, hunfinished, by decide⟩

end Snapshot

end ApprovalFlow
