import ApprovalFlow.Proofs.Dispatch.Lookup
import ApprovalFlow.Proofs.Dispatch.Verdict
import ApprovalFlow.Proofs.Engine.Settling

/-!
# Branches

A branch of a concurrent gateway ends at an approval step, and the tasks at that step decide when it
is closed. Before anything is said of histories, here is what a single event about one of these tasks
can lead to, as the tasks stand at that moment.

- `Branch`: an approval step in front of a gateway, in one instance.
- `Branch.Kept`: what stays true of the tasks at the step, if they are created in one batch.
- `Branch.Decisive`, `Branch.Undecided`: decisions that are enough to close the branch, and tasks
  among which there is none.
- `Branch.exists_verdict_of_decisive`: **the event about a decisive task closes the branch.**
- `Branch.Undecided.exists_unfinished`: before there is one, a finished task fails to close it only
  because another task is open.
-/

namespace ApprovalFlow

/-- An approval step in front of a parallel or inclusion gateway, in one instance. -/
structure Branch where
  inst : String
  node : ProcessNode
  gateway : ProcessNode
  policy : JoinPolicy
  /-- The event that tells of tasks finished in front of such gateways. -/
  event : EventName

namespace Branch

/-- The step and the gateway belong to the definition, and the gateway lists the step. -/
structure Of (b : Branch) (p : ProcessDefinition) : Prop where
  distinct : (p.nodes.map (·.id)).Nodup
  node : b.node ∈ p.nodes
  gateway : b.gateway ∈ p.nodes
  concurrent : b.gateway.isConcurrentJoin = true
  policy : b.gateway.joinPolicy? = some b.policy
  event : b.event.joinPolicy? = some b.policy
  lists : b.node.id ∈ b.gateway.predecessorIds

/-- The tasks at the step. -/
def tasks (b : Branch) (s : Store) : List Task := s.tasksAt b.inst b.node.id

/-- Was the branch closed at the gateway? -/
def IsClosed (b : Branch) (s : Store) : Prop :=
  ∃ c ∈ s.closed, c.instanceId = b.inst ∧ c.gateway = b.gateway.id ∧ c.predecessor = b.node.id

/-- Must everybody agree who has a task beside this one? -/
def needsAll (b : Branch) (t : Task) : Bool := t.cosigned || b.node.cosigned

/-- Is the decision on the task enough to close the branch? -/
def Decisive (b : Branch) (t : Task) : Prop :=
  t.status = .rejected ∨ t.status = .passed ∧ b.needsAll t = false

/-- What stays true of the tasks at the step: they are of one batch, and open ones are pending. -/
structure Kept (b : Branch) (p : ProcessDefinition) (batch : String) (s : Store) : Prop where
  definition : s.definitionFor? b.inst = some p
  batch : ∀ t ∈ b.tasks s, t.batch = batch
  orderly : ∀ t ∈ b.tasks s, t.finished = false → t.status = .pending

variable {b : Branch} {p : ProcessDefinition} {batch : String} {s s' : Store} {t : Task}

theorem mem_tasks_iff :
    t ∈ b.tasks s ↔ t ∈ s.tasks ∧ t.instanceId = b.inst ∧ t.nodeId = b.node.id := by
  unfold tasks Store.tasksAt
  rw [List.mem_filter, Bool.and_eq_true, beq_iff_eq, beq_iff_eq]

/-- Settling keeps it. -/
theorem Kept.settles (h : b.Kept p batch s) (hsettles : s.Settles s')
    (hdefinition : s'.definitionFor? b.inst = s.definitionFor? b.inst) : b.Kept p batch s' where
  definition := hdefinition.trans h.definition
  batch := by
    intro t ht
    obtain ⟨ht, hinst, hnode⟩ := mem_tasks_iff.mp ht
    obtain ⟨u, hu, hut⟩ := hsettles.back ht
    obtain ⟨-, hinst', hnode', hbatch'⟩ := hut.origin
    rw [hbatch']
    exact h.batch u (mem_tasks_iff.mpr ⟨hu, hinst'.symm.trans hinst, hnode'.symm.trans hnode⟩)
  orderly := by
    intro t ht hopen
    obtain ⟨ht, hat⟩ := mem_tasks_iff.mp ht
    exact h.orderly t (mem_tasks_iff.mpr ⟨hsettles.unfinished ht hopen, hat⟩) hopen

/-! ## Verdicts on a task at the step -/

section Verdicts

variable {policy : JoinPolicy} {outcome : BranchOutcome}

/-- The other tasks of the batch of a task at the step are the tasks at the step. -/
theorem beside_iff (hkept : b.Kept p batch s) (ht : t ∈ b.tasks s) {u : Task} :
    u ∈ s.tasksOf b.inst ∧ Snapshot.Beside t u ↔ u ∈ b.tasks s := by
  obtain ⟨-, -, hnode⟩ := mem_tasks_iff.mp ht
  have hbatch := hkept.batch t ht
  unfold Store.tasksOf Snapshot.Beside
  rw [List.mem_filter, beq_iff_eq, hnode, hbatch]
  constructor
  · rintro ⟨⟨hu, hinst⟩, hunode, -⟩
    exact mem_tasks_iff.mpr ⟨hu, hinst, hunode⟩
  · intro hu
    obtain ⟨hmem, hinst, hunode⟩ := mem_tasks_iff.mp hu
    exact ⟨⟨hmem, hinst⟩, hunode, hkept.batch u hu⟩

/-- A decision finds the gateway, whether or not it looks for one with its policy. -/
theorem gateway_mem_joinsAfter (hb : b.Of p) (tasks : List Task) {policy? : Option JoinPolicy}
    (hpolicy : policy? = none ∨ policy? = some b.policy) :
    b.gateway.id ∈ (Snapshot.ofParts p.table tasks).joinsAfter b.node.id policy? := by
  refine (Snapshot.mem_joinsAfter_iff hb.distinct).mpr
    ⟨b.gateway, hb.gateway, rfl, hb.concurrent, ?_, hb.lists⟩
  rcases hpolicy with rfl | rfl
  · exact .inl rfl
  · exact .inr hb.policy

/-- No other batch of the step is open, and the gateway is found. -/
theorem answers (hb : b.Of p) (hkept : b.Kept p batch s) (ht : t ∈ b.tasks s) :
    (Snapshot.ofParts p.table (s.tasksOf b.inst)).Answers b.policy t := by
  obtain ⟨-, -, hnode⟩ := mem_tasks_iff.mp ht
  constructor
  · refine List.ne_nil_of_mem (a := b.gateway.id) ?_
    rw [hnode]
    exact gateway_mem_joinsAfter hb _ (.inr rfl)
  · rintro ⟨u, hu, hunode, hubatch, -⟩
    obtain ⟨hu, hinst⟩ := List.mem_filter.mp hu
    refine hubatch ?_
    rw [hkept.batch t ht]
    exact hkept.batch u (mem_tasks_iff.mpr ⟨hu, beq_iff_eq.mp hinst, hunode.trans hnode⟩)

theorem needsAll_eq (hb : b.Of p) (ht : t ∈ b.tasks s) :
    (Snapshot.ofParts p.table (s.tasksOf b.inst)).needsAll t = b.needsAll t := by
  obtain ⟨-, -, hnode⟩ := mem_tasks_iff.mp ht
  show (t.cosigned || (Ledger.ofTasks (.ofList p.nodes) _).isCosigned t.nodeId) = _
  rw [hnode, Ledger.isCosigned_eq hb.distinct hb.node]
  rfl

/-- The event about a decisive task closes the branch. -/
theorem exists_verdict_of_decisive (hb : b.Of p) (hkept : b.Kept p batch s) (ht : t ∈ b.tasks s)
    (hfinished : t.finished = true) (hdecisive : b.Decisive t) :
    ∃ outcome, (Snapshot.ofParts p.table (s.tasksOf b.inst)).verdict? b.policy t = some outcome := by
  have hanswers := answers hb hkept ht
  by_cases hrejected : ∃ u ∈ b.tasks s, u.status = .rejected
  · obtain ⟨u, hu, hstatus⟩ := hrejected
    obtain ⟨hof, hbeside⟩ := (beside_iff hkept ht).mpr hu
    exact ⟨.rejected, Snapshot.verdict?_eq_rejected_iff.mpr ⟨hanswers, u, hof, hbeside, hstatus⟩⟩
  · rcases hdecisive with hstatus | ⟨hstatus, hneeds⟩
    · exact absurd ⟨t, ht, hstatus⟩ hrejected
    · refine ⟨.passed, Snapshot.verdict?_eq_passed_iff.mpr ⟨hanswers, ?_, ?_, ?_⟩⟩
      · intro u hu hbeside hustatus
        exact hrejected ⟨u, (beside_iff hkept ht).mp ⟨hu, hbeside⟩, hustatus⟩
      · unfold Task.isPassed
        rw [hfinished, hstatus]
        rfl
      · intro hall
        rw [needsAll_eq hb ht, hneeds] at hall
        cases hall

/-- As long as nothing decisive happened, all finished tasks were passed, where everybody must
agree. -/
def Undecided (b : Branch) (s : Store) : Prop :=
  ∀ t ∈ b.tasks s, t.finished = false ∨ t.status = .passed ∧ b.needsAll t = true

theorem Undecided.not_rejected (hall : b.Undecided s) (hkept : b.Kept p batch s)
    (ht : t ∈ b.tasks s) : t.status ≠ .rejected := by
  intro hstatus
  rcases hall t ht with hopen | ⟨hpassed, -⟩
  · rw [hkept.orderly t ht hopen] at hstatus
    cases hstatus
  · rw [hpassed] at hstatus
    cases hstatus

/-- As long as nothing decisive happened, an event about a finished task fails to close the branch
only because another task is open. -/
theorem Undecided.exists_unfinished (hall : b.Undecided s) (hb : b.Of p)
    (hkept : b.Kept p batch s) (ht : t ∈ b.tasks s) (hfinished : t.finished = true)
    (hverdict : (Snapshot.ofParts p.table (s.tasksOf b.inst)).verdict? b.policy t = none) :
    ∃ u ∈ b.tasks s, u.finished = false := by
  by_contra hnone
  have hpassed : ∀ u ∈ b.tasks s, u.status = .passed := by
    intro u hu
    rcases hall u hu with hopen | ⟨hstatus, -⟩
    · exact absurd ⟨u, hu, hopen⟩ hnone
    · exact hstatus
  -- everybody agreed, so the branch would be closed as passed
  have hclosed : (Snapshot.ofParts p.table (s.tasksOf b.inst)).verdict? b.policy t =
      some .passed := by
    refine Snapshot.verdict?_eq_passed_iff.mpr ⟨answers hb hkept ht, ?_, ?_, fun _ => ?_⟩
    · intro u hu hbeside
      exact hall.not_rejected hkept ((beside_iff hkept ht).mp ⟨hu, hbeside⟩)
    · unfold Task.isPassed
      rw [hfinished, hpassed t ht]
      rfl
    · have hevent := hb.event
      cases hpolicy : b.policy with
      | waitAll =>
        refine Snapshot.isAgreed_waitAll_iff.mpr fun u hu hbeside hstatus => ?_
        rw [hpassed u ((beside_iff hkept ht).mp ⟨hu, hbeside⟩)] at hstatus
        cases hstatus
      | onArrival =>
        obtain ⟨hof, hbeside⟩ := (beside_iff hkept ht).mpr ht
        exact Snapshot.isAgreed_onArrival_iff.mpr ⟨⟨t, hof, hbeside⟩, fun u hu hbeside =>
          hpassed u ((beside_iff hkept ht).mp ⟨hu, hbeside⟩)⟩
      | chainedCondition =>
        rw [hpolicy] at hevent
        cases h : b.event <;> rw [h] at hevent <;> cases hevent
  rw [hverdict] at hclosed
  cases hclosed

/-- As long as nothing decisive happened, a verdict leaves no task of the batch to be closed by the
system. -/
theorem Undecided.not_pending (hall : b.Undecided s) (hb : b.Of p) (hkept : b.Kept p batch s)
    (ht : t ∈ b.tasks s)
    (hverdict : (Snapshot.ofParts p.table (s.tasksOf b.inst)).verdict? policy t = some outcome) :
    ¬ 0 < ((Ledger.ofTasks p.table (s.tasksOf b.inst)).tally t.nodeId t.batch).pending := by
  rw [Ledger.pending_pos_iff]
  rintro ⟨u, hu, hnode, hubatch, hpending⟩
  have hbeside : Snapshot.Beside t u := ⟨hnode, hubatch⟩
  cases outcome with
  | rejected =>
    obtain ⟨-, v, hv, hvbeside, hstatus⟩ := Snapshot.verdict?_eq_rejected_iff.mp hverdict
    exact hall.not_rejected hkept ((beside_iff hkept ht).mp ⟨hv, hvbeside⟩) hstatus
  | passed =>
    obtain ⟨-, -, hpassed, hagreed⟩ := Snapshot.verdict?_eq_passed_iff.mp hverdict
    obtain ⟨hfinished, -⟩ := Bool.and_eq_true_iff.mp hpassed
    have hneeds : b.needsAll t = true := by
      rcases hall t ht with hopen | ⟨-, hneeds⟩
      · rw [hopen] at hfinished
        cases hfinished
      · exact hneeds
    have hagreed := hagreed ((needsAll_eq hb ht).trans hneeds)
    cases policy with
    | waitAll => exact Snapshot.isAgreed_waitAll_iff.mp hagreed u hu hbeside hpending
    | onArrival =>
      rw [(Snapshot.isAgreed_onArrival_iff.mp hagreed).2 u hu hbeside] at hpending
      cases hpending
    | chainedCondition => cases hagreed

end Verdicts

end Branch

end ApprovalFlow
