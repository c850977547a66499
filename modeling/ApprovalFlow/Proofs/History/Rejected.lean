import ApprovalFlow.Proofs.History.Siblings

/-!
# A branch that a cleanup rejected

A cleanup rejects the branches beside a rejected one, whatever their tasks came to. What is still
open at the head of such a branch is closed by the system, and nobody who had not spoken by then can
close the branch as passed any more. Who had agreed before may have an event on its way. The
dispatcher remembers no closures, so that event, if it comes late, closes the branch once more, and
as passed.

- `Move.Steady`: moves that decide open tasks only and create none.
- `Dispatcher.ClosesBranch`: an event closes a branch at a gateway.
- `Dispatcher.passed_of_closes`, `Dispatcher.passed_before_cleanup`: who closes a branch as passed,
  and whom a cleanup leaves to do so.
- `Dispatcher.stays_rejected`: **a branch that a cleanup closed as rejected is closed as passed only
  by an event about a task that was passed before the cleanup.**
- `Dispatcher.passed_after_cleanup`: such an event.
-/

namespace ApprovalFlow

/-! ## Steady moves -/

/-- Does the move create a task? -/
def Move.creates : Move → Bool
  | .call (.createTask ..) => true
  | _ => false

/-- Approvers decide only on open tasks, and there are no new ones. -/
def Move.Steady (s : Store) (m : Move) : Prop := m.Fair s ∧ m.creates = false

instance (s : Store) : DecidablePred (Move.Steady s) := fun _ =>
  inferInstanceAs (Decidable (_ ∧ _))

namespace Dispatcher

variable {hooks : HookEvent → Except FlowError Unit} {autoPass : AutoPassOptions}
  {dispatch : DispatchOptions} {d : Dispatcher Store} {moves : List Move}

/-- Steady moves settle tasks. -/
theorem settles_play (hmoves : Along (Store.wiring hooks autoPass dispatch) d Move.Steady moves) :
    d.engine.Settles (d.play (Store.wiring hooks autoPass dispatch) moves).engine := by
  refine play_induction (motive := fun moves =>
    d.engine.Settles (d.play (Store.wiring hooks autoPass dispatch) moves).engine) (.refl _) ?_ hmoves
  intro moves m ih hm
  rw [play_concat]
  rcases settles_move hm.1 with h | ⟨inst, node, batch, user, cosigned, rfl⟩
  · exact ih.trans h
  · cases hm.2

/-! ## Closing a branch -/

/-- Handling the event closes the branch that ends at the node, at the gateway. -/
def ClosesBranch (w : Wiring Store) (d : Dispatcher Store) (event : EngineEvent)
    (inst gateway node : String) (outcome : BranchOutcome) : Prop :=
  event.instanceId = inst ∧ ∃ report d' comment, handle w event d = .ok report d' ∧
    .closeBranch gateway node outcome comment ∈ report.commands

variable {e : EventName} {q : Task} {inst gateway node : String} {outcome : BranchOutcome}

/-- An event closes a branch if that is one of its commands, since then it does not fail. -/
theorem closesBranch_of_mem {event : EngineEvent} {comment : String}
    (hmem : .closeBranch gateway node outcome comment ∈ d.engine.commands dispatch event)
    (hinst : event.instanceId = inst) :
    ClosesBranch (Store.wiring hooks autoPass dispatch) d event inst gateway node outcome :=
  ⟨hinst, _, _, comment, handle_ok hmem rfl, hmem⟩

/-- The commands of such an event are a decision about a definition and the tasks of the instance. -/
theorem exists_decision_of_closes (h : ClosesBranch (Store.wiring hooks autoPass dispatch) d
      (.taskFinished e q) inst gateway node outcome) :
    q.instanceId = inst ∧ ∃ p : ProcessDefinition, ∃ comment,
      d.engine.commands dispatch (.taskFinished e q) = decideTaskFinished e (d.engine.current q)
          (.ofParts p.table (d.engine.tasksOf q.instanceId)) dispatch ∧
        .closeBranch gateway node outcome comment ∈
          d.engine.commands dispatch (.taskFinished e q) := by
  obtain ⟨hinst, report, d', comment, hhandle, hmem⟩ := h
  obtain ⟨⟨p, hp⟩, hreport⟩ := exists_definition_of_handle hhandle
  rw [hreport] at hmem
  exact ⟨hinst, p, comment, Store.commands_taskFinished hp dispatch e, hmem⟩

/-- Who closes a branch as passed does so by a task at its end that an approver passed. -/
theorem passed_of_closes (h : ClosesBranch (Store.wiring hooks autoPass dispatch) d
      (.taskFinished e q) inst gateway node .passed) :
    q.instanceId = inst ∧ (d.engine.current q).nodeId = node ∧
      (d.engine.current q).isPassed = true := by
  obtain ⟨hinst, p, comment, hcommands, hmem⟩ := exists_decision_of_closes h
  rw [hcommands] at hmem
  obtain ⟨hnode, policy, -, hverdict⟩ := verdict?_of_mem_passed hmem
  obtain ⟨-, -, hpassed, -⟩ := Snapshot.verdict?_eq_passed_iff.mp hverdict
  exact ⟨hinst, hnode.symm, hpassed⟩

/-! ## What a cleanup leaves -/

section Cleanup

variable (he : e.isCleanup = true)
  (hclosed : ClosesBranch (Store.wiring hooks autoPass dispatch) d (.taskFinished e q) inst gateway
    node .rejected)

include he hclosed

/-- A cleanup that closes a branch closes the open tasks at its head, and closes tasks in no other
way than as rejected by the system. -/
theorem finishPending_of_cleanup :
    .finishPending node none .systemRejected dispatch.cleanupComment ∈
        d.engine.commands dispatch (.taskFinished e q) ∧
      ∀ node' batch status comment, .finishPending node' batch status comment ∈
        d.engine.commands dispatch (.taskFinished e q) → status = .systemRejected := by
  obtain ⟨-, p, comment, hcommands, hmem⟩ := exists_decision_of_closes hclosed
  rw [hcommands, decideTaskFinished_of_isCleanup he] at hmem ⊢
  constructor
  · obtain ⟨head, hhead, hall⟩ := mem_decideRejectCleanup hmem
    rcases mem_closeSibling_iff.mp hhead with heq | ⟨g, -, heq⟩
    · cases heq
    · obtain rfl : node = head := by injection heq
      exact hall _ (mem_closeSibling_iff.mpr (.inl rfl))
  · intro node' batch status comment' hfinish
    obtain ⟨head, hhead, -⟩ := mem_decideRejectCleanup hfinish
    rcases mem_closeSibling_iff.mp hhead with heq | ⟨g, -, heq⟩
    · injection heq
    · cases heq

/-- Afterwards a task at the head that an approver passed is one that was passed before. -/
theorem passed_before_cleanup {id : String} {t u : Task}
    (hbefore : (d.engine.tasksOf inst).find? (fun t => t.id == id) = some t)
    (hafter : ((d.move (Store.wiring hooks autoPass dispatch)
      (.handle (.taskFinished e q))).engine.tasksOf inst).find? (fun t => t.id == id) = some u)
    (hpassed : u.isPassed = true) : t.isPassed = true := by
  obtain ⟨-, honly⟩ := finishPending_of_cleanup he hclosed
  rw [engine_move_handle] at hafter
  obtain ⟨u', hafter', hobeys⟩ := Store.exists_find?_foldl_obey hbefore
  obtain rfl := Option.some.inj (hafter.symm.trans hafter')
  cases hobeys with
  | same => exact hpassed
  | closed hmem _ =>
    -- the status of a task that the cleanup closed says that it was the system
    obtain rfl := honly _ _ _ _ hmem
    cases hpassed

/-- Afterwards no task at the head is open. -/
theorem finished_after_cleanup {t : Task} (ht : t ∈ (d.move (Store.wiring hooks autoPass dispatch)
      (.handle (.taskFinished e q))).engine.tasks)
    (hinst : t.instanceId = inst) (hnode : t.nodeId = node) : t.finished = true := by
  obtain ⟨hhead, -⟩ := finishPending_of_cleanup he hclosed
  rw [engine_move_handle] at ht
  have hclose := Store.finished_of_finishPending hhead ht
  by_contra hopen
  rw [Bool.eq_false_iff] at hclose
  refine hclose (Store.isOpenAt_iff.mpr ⟨?_, hnode, Bool.eq_false_iff.mpr hopen, .inl rfl⟩)
  exact hinst.trans hclosed.1.symm

/-- **A branch that a cleanup closed as rejected stays rejected**: as long as nobody creates tasks
and approvers decide on open ones only, it is closed as passed by no event, but for those about
tasks that an approver had passed when the cleanup came. -/
theorem stays_rejected
    (hmoves : Along (Store.wiring hooks autoPass dispatch)
      (d.move (Store.wiring hooks autoPass dispatch) (.handle (.taskFinished e q)))
      Move.Steady moves)
    {q' : Task} (hstored : ∃ t ∈ d.engine.tasks, t.id = q'.id ∧ t.instanceId = q'.instanceId)
    (hunpassed : (d.engine.current q').isPassed = false) (e' : EventName) (gateway' : String) :
    ¬ ClosesBranch (Store.wiring hooks autoPass dispatch)
      ((d.move (Store.wiring hooks autoPass dispatch) (.handle (.taskFinished e q))).play
        (Store.wiring hooks autoPass dispatch) moves) (.taskFinished e' q') inst gateway' node
      .passed := by
  intro hpasses
  obtain ⟨hinst, hnode, hpassed⟩ := passed_of_closes hpasses
  -- follow the task of the later event through the cleanup and the moves after it
  have hbefore := Store.find?_current hstored
  obtain ⟨t, hafter, -⟩ := (settles_handle (.taskFinished e q) d).exists_find? hbefore
  obtain ⟨u, hlater, hsettles⟩ := (settles_play hmoves).exists_find? hafter
  rw [Store.current_eq hlater] at hnode hpassed
  have ht := List.mem_filter.mp (List.mem_of_find?_eq_some hafter)
  have hfinished : t.finished = true :=
    finished_after_cleanup he hclosed ht.1 ((beq_iff_eq.mp ht.2).trans hinst)
      (hsettles.origin.2.2.1.symm.trans hnode)
  -- it was finished right after the cleanup, so it is as the cleanup left it
  rw [hsettles.eq_of_finished hfinished] at hpassed
  rw [hinst] at hbefore hafter
  rw [passed_before_cleanup he hclosed hbefore hafter hpassed] at hunpassed
  cases hunpassed

end Cleanup

/-- The task of the second of two people, as it is created. -/
def secondTask : Task := ⟨"task-2", "inst-1", "U2", "b2", "bob", .pending, false, false, ""⟩

/-- The first of two people says no, and before the second says anything the cleanup comes. What the
second says then is too late. -/
theorem stays_rejected_pair :
    let w := Store.wiring (fun _ => .ok ()) {} {}
    let d := initial.play w (firstRejects .pair)
    ¬ ClosesBranch w ((d.move w (.handle (.taskFinished .concurrentRejectCleanup firstTask))).play w
      [.call (.passTask "task-2" "yes")]) (.taskFinished .taskParallelPass secondTask) "inst-1" "J"
      "U2" .passed := by
  intro w d
  have hmem : .closeBranch "J" "U2" .rejected ({} : DispatchOptions).cleanupComment ∈
      d.engine.commands {} (.taskFinished .concurrentRejectCleanup firstTask) := by decide
  have hclosed : ClosesBranch w d (.taskFinished .concurrentRejectCleanup firstTask) "inst-1" "J"
      "U2" .rejected := closesBranch_of_mem hmem rfl
  have hmoves : Along w (d.move w (.handle (.taskFinished .concurrentRejectCleanup firstTask)))
      Move.Steady [.call (.passTask "task-2" "yes")] := by decide
  exact stays_rejected rfl hclosed hmoves (by decide) (by decide) .taskParallelPass "J"

/-- The second of two people says yes, then the first says no. The cleanup comes before the event
about the second: the joining gateway is told first that the branch of the second was rejected, and
then that it was passed. -/
theorem passed_after_cleanup :
    let w := Store.wiring (fun _ => .ok ()) {} {}
    let d := initial.play w (bothAtWork .pair)
    let decisions : List Move := [.call (.completeTask "task-2" .passed "yes"),
      .call (.completeTask "task-1" .rejected "no")]
    let cleanup : EngineEvent := .taskFinished .concurrentRejectCleanup firstTask
    let late : EngineEvent := .taskFinished .taskParallelPass secondTask
    (∀ t ∈ d.engine.tasks, ∀ u ∈ d.engine.tasks, t.nodeId = u.nodeId → t.batch = u.batch) ∧
      Along w d Move.Steady (decisions ++ [.handle cleanup, .handle late]) ∧
      (∀ t ∈ (d.play w decisions).engine.tasks, t.finished = true) ∧
      ClosesBranch w (d.play w decisions) cleanup "inst-1" "J" "U2" .rejected ∧
      ClosesBranch w ((d.play w decisions).move w (.handle cleanup)) late "inst-1" "J" "U2"
        .passed := by
  intro w d decisions cleanup late
  have hrejects : .closeBranch "J" "U2" .rejected ({} : DispatchOptions).cleanupComment ∈
      (d.play w decisions).engine.commands {} cleanup := by decide
  have hpasses : .closeBranch "J" "U2" .passed ({} : DispatchOptions).passComment ∈
      ((d.play w decisions).move w (.handle cleanup)).engine.commands {} late := by decide
  exact ⟨by decide, by decide, by decide, closesBranch_of_mem hrejects rfl,
    closesBranch_of_mem hpasses rfl⟩

end Dispatcher

end ApprovalFlow
