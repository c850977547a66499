import ApprovalFlow.Proofs.Definition.Subscriptions
import ApprovalFlow.Proofs.History.Branches
import ApprovalFlow.Proofs.History.Decisions

/-!
# No branch is lost

A gateway waits for a branch until the branch is closed, and the branch is closed only when an event
about one of its tasks is handled at the right moment. Approvers, deliveries and the closing of
sibling tasks interleave in any order, and an event that comes too early, or for a task that the
system closed in the meantime, leads to nothing. Still, once all tasks are finished and every
decision was followed by the event about it, the branch is closed.

The reason is an invariant of the branch, with three ways to be secured. A branch that is not closed
either has a task whose decision is enough to close it and whose event is yet to come, or all that
happened so far is not enough, and some task is open or has its event yet to come.

- `Branch.Waits`: a task was decided, and its event is yet to come.
- `Branch.Secured`: the invariant.
- `Branch.Secured.concat`: what a move has to do with the branch at all.
- `Branch.secured_decides`, `Branch.secured_delivers`: the two steps of the invariant.
- `Dispatcher.no_branch_lost`: **every gateway behind the step is told.**
-/

namespace ApprovalFlow

namespace Branch

/-! ## The invariant -/

/-- The task was decided, and no event about it was handled since. -/
structure Waits (w : Wiring Store) (start : Dispatcher Store) (b : Branch) (moves : List Move)
    (t : Task) : Prop where
  finished : t.finished = true
  current : ((start.play w moves).engine.tasksOf b.inst).find? (fun u => u.id == t.id) = some t
  unanswered : ∃ pre m post u, moves = pre ++ m :: post ∧ m.Decides (start.play w pre).engine u ∧
    u ∈ b.tasks (start.play w pre).engine ∧ u.id = t.id ∧
    ∀ q, q.id = t.id → q.instanceId = b.inst → .handle (.taskFinished b.event q) ∉ post

/-- Why the branch will not be forgotten. -/
inductive Secured (w : Wiring Store) (start : Dispatcher Store) (b : Branch) (moves : List Move) :
    Prop where
  /-- It was closed. -/
  | closed (h : b.IsClosed (start.play w moves).engine)
  /-- The event about a decisive task is yet to come. -/
  | decisive (t : Task) (ht : t ∈ b.tasks (start.play w moves).engine) (hdecisive : b.Decisive t)
      (hwaits : b.Waits w start moves t)
  /-- Nothing decisive happened, and something is yet to come. -/
  | undecided (hall : b.Undecided (start.play w moves).engine) (t : Task)
      (ht : t ∈ b.tasks (start.play w moves).engine)
      (hnext : t.finished = false ∨ b.Waits w start moves t)

section Steps

variable {w : Wiring Store} {start : Dispatcher Store} {b : Branch} {p : ProcessDefinition}
  {batch : String} {moves : List Move} {m : Move} {t : Task}

/-- A task waits on, unless an event about it is handled. -/
theorem Waits.concat (h : b.Waits w start moves t)
    (hsettles : (start.play w moves).engine.Settles ((start.play w moves).move w m).engine)
    (hm : ∀ q, m = .handle (.taskFinished b.event q) → q.instanceId = b.inst → q.id ≠ t.id) :
    b.Waits w start (moves ++ [m]) t where
  finished := h.finished
  current := by
    rw [Dispatcher.play_concat]
    exact hsettles.current h.current h.finished
  unanswered := by
    obtain ⟨pre, m', post, u, hmoves, hdecides, hu, hid, hpost⟩ := h.unanswered
    refine ⟨pre, m', post ++ [m], u, ?_, hdecides, hu, hid, fun q hq hinst hmem => ?_⟩
    · rw [hmoves, List.append_assoc, List.cons_append]
    · rcases List.mem_append.mp hmem with hmem | hmem
      · exact hpost q hq hinst hmem
      · exact hm q (List.mem_singleton.mp hmem).symm hinst hq

/-- A move that is no event about a decisive task that waits leaves the branch secured, provided that
it does so as long as nothing decisive happened. -/
theorem Secured.concat (h : b.Secured w start moves)
    (hsettles : (start.play w moves).engine.Settles ((start.play w moves).move w m).engine)
    (hclosed : b.IsClosed (start.play w moves).engine →
      b.IsClosed ((start.play w moves).move w m).engine)
    (hm : ∀ t ∈ b.tasks (start.play w moves).engine, b.Decisive t → b.Waits w start moves t →
      ∀ q, m = .handle (.taskFinished b.event q) → q.instanceId = b.inst → q.id ≠ t.id)
    (hundecided : b.Undecided (start.play w moves).engine →
      ∀ t ∈ b.tasks (start.play w moves).engine, t.finished = false ∨ b.Waits w start moves t →
        b.Secured w start (moves ++ [m])) :
    b.Secured w start (moves ++ [m]) := by
  cases h with
  | closed h =>
    rw [← Dispatcher.play_concat] at hclosed
    exact .closed (hclosed h)
  | decisive t ht hdecisive hwaits =>
    have hkeeps := hwaits.concat hsettles (hm t ht hdecisive hwaits)
    obtain ⟨ht, hat⟩ := mem_tasks_iff.mp ht
    have ht := mem_tasks_iff.mpr ⟨hsettles.finished ht hwaits.finished, hat⟩
    rw [← Dispatcher.play_concat] at ht
    exact .decisive t ht hdecisive hkeeps
  | undecided hall t ht hnext => exact hundecided hall t ht hnext

/-- A move that is no event about a waiting task, and leaves the tasks at the step alone, leaves the
branch secured. -/
theorem Secured.concat_of_same (h : b.Secured w start moves)
    (hsettles : (start.play w moves).engine.Settles ((start.play w moves).move w m).engine)
    (hclosed : b.IsClosed (start.play w moves).engine →
      b.IsClosed ((start.play w moves).move w m).engine)
    (htasks : b.tasks ((start.play w moves).move w m).engine =
      b.tasks (start.play w moves).engine)
    (hm : ∀ t ∈ b.tasks (start.play w moves).engine, b.Waits w start moves t →
      ∀ q, m = .handle (.taskFinished b.event q) → q.instanceId = b.inst → q.id ≠ t.id) :
    b.Secured w start (moves ++ [m]) := by
  refine h.concat hsettles hclosed (fun t ht _ => hm t ht) fun hall t ht hnext => ?_
  rw [← Dispatcher.play_concat] at htasks
  refine .undecided ?_ t (htasks ▸ ht) ?_
  · unfold Undecided
    rw [htasks]
    exact hall
  · exact hnext.imp_right fun hwaits => hwaits.concat hsettles (hm t ht hwaits)

/-! ## Decisions -/

/-- After a decision that is not enough, nothing decisive happened still. -/
theorem Undecided.decided {s s' : Store} {u : Task} (hall : b.Undecided s)
    (h : s.Decided s' t u) (hu : ¬ b.Decisive u) : b.Undecided s' := by
  intro x hx
  obtain ⟨hx, hat⟩ := mem_tasks_iff.mp hx
  rcases h.eq_or_mem hx with rfl | hx
  · -- such a decision is to pass a task where everybody must agree
    refine .inr ?_
    obtain ⟨status, comment, hstatus, rfl⟩ := h.decided
    rcases hstatus with rfl | rfl
    · refine ⟨rfl, ?_⟩
      by_contra hneeds
      exact hu (.inr ⟨rfl, Bool.eq_false_iff.mpr hneeds⟩)
    · exact absurd (.inl rfl) hu
  · exact hall x (mem_tasks_iff.mpr ⟨hx, hat⟩)

/-- **A decision leaves the branch secured.** -/
theorem secured_decides (h : b.Secured w start moves)
    (hsettles : (start.play w moves).engine.Settles ((start.play w moves).move w m).engine)
    (hm : m.Decides (start.play w moves).engine t) : b.Secured w start (moves ++ [m]) := by
  obtain ⟨u, hdecided⟩ := hm.after w
  obtain ⟨hid, hinst, hnode, hfinished⟩ := hdecided.origin
  have hnot : ∀ q, m ≠ .handle (.taskFinished b.event q) := fun q => hm.ne_handle _
  have hclosed : b.IsClosed (start.play w moves).engine →
      b.IsClosed ((start.play w moves).move w m).engine := by
    unfold IsClosed
    rw [hdecided.closed]
    exact id
  by_cases hat : t.instanceId = b.inst ∧ t.nodeId = b.node.id
  swap
  · exact h.concat_of_same hsettles hclosed (hdecided.tasksAt_eq hat)
      fun _ _ _ q heq => absurd heq (hnot q)
  have ht : t ∈ b.tasks (start.play w moves).engine :=
    mem_tasks_iff.mpr ⟨hdecided.mem_before, hat⟩
  have hu : u ∈ b.tasks ((start.play w moves).move w m).engine :=
    mem_tasks_iff.mpr ⟨hdecided.mem_after, hinst.trans hat.1, hnode.trans hat.2⟩
  -- the decided task waits from now on
  have hwaits : b.Waits w start (moves ++ [m]) u := by
    refine ⟨hfinished, ?_, moves, m, [], t, rfl, hm, ht, hid.symm, fun q _ _ hmem => ?_⟩
    · rw [Dispatcher.play_concat, hid, ← hat.1, ← hinst, ← hid]
      exact Store.find?_tasksOf (hid ▸ hdecided.found)
    · cases hmem
  refine h.concat hsettles hclosed (fun _ _ _ _ q heq => absurd heq (hnot q)) fun hall _ _ _ => ?_
  rw [← Dispatcher.play_concat] at hu hdecided
  by_cases hdecisive : b.Decisive u
  · exact .decisive u hu hdecisive hwaits
  · exact .undecided (hall.decided hdecided hdecisive) u hu (.inr hwaits)

/-! ## Deliveries -/

/-- An event that is about a waiting task is judged by that task. -/
theorem Waits.current_eq (h : b.Waits w start moves t) {q : Task} (hid : q.id = t.id)
    (hinst : q.instanceId = b.inst) : (start.play w moves).engine.current q = t := by
  refine Store.current_eq ?_
  rw [hid, hinst]
  exact h.current

/-- An event about a task at the step that leads to nothing leaves the branch secured. -/
theorem secured_unheeded (h : b.Secured w start moves) (hb : b.Of p)
    (hkept : b.Kept p batch (start.play w moves).engine) {e : EventName} {q : Task}
    {policy : JoinPolicy} (he : e.joinPolicy? = some policy)
    (hverdict : (Snapshot.ofParts p.table ((start.play w moves).engine.tasksOf b.inst)).verdict?
      policy ((start.play w moves).engine.current q) = none)
    (hsame : ((start.play w moves).move w (.handle (.taskFinished e q))).engine =
      (start.play w moves).engine) :
    b.Secured w start (moves ++ [.handle (.taskFinished e q)]) := by
  have hsettles : (start.play w moves).engine.Settles
      ((start.play w moves).move w (.handle (.taskFinished e q))).engine := by
    rw [hsame]
    exact .refl _
  have hplay : (start.play w (moves ++ [.handle (.taskFinished e q)])).engine =
      (start.play w moves).engine := by
    rw [Dispatcher.play_concat, hsame]
  -- the event is about a waiting task only if that is the task that it is judged by
  have hjudged : ∀ x, b.Waits w start moves x → ∀ q',
      Move.handle (.taskFinished e q) = .handle (.taskFinished b.event q') →
        q'.instanceId = b.inst → q'.id = x.id →
          policy = b.policy ∧ (start.play w moves).engine.current q = x := by
    intro x hwaits q' heq hinst hid
    injection heq with heq
    injection heq with he' hq
    rw [← hq] at hinst hid
    rw [he', hb.event] at he
    exact ⟨(Option.some.inj he).symm, hwaits.current_eq hid hinst⟩
  refine h.concat hsettles (fun h => hsame ▸ h) (fun x hx hdecisive hwaits q' heq hinst hid => ?_)
    fun hall x hx hnext => ?_
  · -- the event about a decisive task does not lead to nothing
    obtain ⟨rfl, hcurrent⟩ := hjudged x hwaits q' heq hinst hid
    obtain ⟨outcome, hsome⟩ := exists_verdict_of_decisive hb hkept hx hwaits.finished hdecisive
    rw [hcurrent, hsome] at hverdict
    cases hverdict
  rw [← hplay] at hall hx
  rcases hnext with hopen | hwaits
  · exact .undecided hall x hx (.inl hopen)
  by_cases hsure : policy = b.policy ∧ (start.play w moves).engine.current q = x
  · -- the event about this task came too early, because another task is open
    obtain ⟨rfl, hcurrent⟩ := hsure
    rw [hcurrent] at hverdict
    rw [hplay] at hall hx
    obtain ⟨u, hu, hopen⟩ := hall.exists_unfinished hb hkept hx hwaits.finished hverdict
    rw [← hplay] at hall hu
    exact .undecided hall u hu (.inl hopen)
  · have hkeeps := hwaits.concat hsettles fun q' heq hinst hid =>
      hsure (hjudged x hwaits q' heq hinst hid)
    exact .undecided hall x hx (.inr hkeeps)

end Steps

section Deliveries

variable {hooks : HookEvent → Except FlowError Unit} {autoPass : AutoPassOptions}
  {dispatch : DispatchOptions} {start : Dispatcher Store} {b : Branch} {p : ProcessDefinition}
  {batch : String} {moves : List Move} {m : Move} {e : EventName} {q : Task}

/-- The log forgets nothing. -/
theorem IsClosed.handle {d : Dispatcher Store} (h : b.IsClosed d.engine) (event : EngineEvent) :
    b.IsClosed (d.move (Store.wiring hooks autoPass dispatch) (.handle event)).engine := by
  obtain ⟨c, hc, hbranch⟩ := h
  refine ⟨c, ?_, hbranch⟩
  rw [Dispatcher.engine_move_handle, Store.closed_foldl_obey]
  exact List.mem_append_left _ hc

/-- An event with the command to close the branch closes it. -/
theorem secured_of_closeBranch {event : EngineEvent} (hinst : event.instanceId = b.inst)
    {outcome : BranchOutcome} {comment : String}
    (h : .closeBranch b.gateway.id b.node.id outcome comment ∈
      (start.play (Store.wiring hooks autoPass dispatch) moves).engine.commands dispatch event) :
    b.Secured (Store.wiring hooks autoPass dispatch) start (moves ++ [.handle event]) := by
  refine .closed ⟨⟨b.inst, b.gateway.id, b.node.id, outcome, comment⟩, ?_, rfl, rfl, rfl⟩
  rw [Dispatcher.play_concat, Dispatcher.engine_move_handle, Store.closed_foldl_obey, hinst]
  exact List.mem_append_right _ (List.mem_filterMap.mpr ⟨_, h, rfl⟩)

/-- An event that closes no task at the step, and that no task there waits for, leaves the branch
secured. -/
theorem Secured.handle {event : EngineEvent}
    (h : b.Secured (Store.wiring hooks autoPass dispatch) start moves)
    (hleft : event.instanceId = b.inst → ∀ node batch status comment,
      .finishPending node batch status comment ∈
        (start.play (Store.wiring hooks autoPass dispatch) moves).engine.commands dispatch event →
          node ≠ b.node.id)
    (hm : ∀ t ∈ b.tasks (start.play (Store.wiring hooks autoPass dispatch) moves).engine,
      b.Waits (Store.wiring hooks autoPass dispatch) start moves t →
        ∀ q, event = .taskFinished b.event q → q.instanceId = b.inst → q.id ≠ t.id) :
    b.Secured (Store.wiring hooks autoPass dispatch) start (moves ++ [.handle event]) := by
  refine h.concat_of_same (Dispatcher.settles_handle event _) (fun h => h.handle event) ?_ ?_
  · rw [Dispatcher.engine_move_handle]
    exact Store.tasksAt_foldl_obey hleft
  · intro t ht hwaits q heq
    injection heq with heq
    exact hm t ht hwaits q heq

/-- A cleanup that closes the tasks at the step closes the branch with them. -/
theorem exists_closeBranch_of_cleanup (hb : b.Of p) {e : EventName} {t : Task} {tasks : List Task}
    {o : DispatchOptions} {batch : Option String} {status : TaskStatus} {comment : String}
    (h : .finishPending b.node.id batch status comment ∈
      decideRejectCleanup e t (.ofParts p.table tasks) o) :
    ∃ comment, .closeBranch b.gateway.id b.node.id .rejected comment ∈
      decideRejectCleanup e t (.ofParts p.table tasks) o := by
  obtain ⟨head, hmem, hall⟩ := mem_decideRejectCleanup h
  rcases mem_closeSibling_iff.mp hmem with heq | ⟨g, -, heq⟩
  · obtain rfl : b.node.id = head := by injection heq
    have hjoin := gateway_mem_joinsAfter hb tasks (.inl rfl)
    exact ⟨_, hall _ (mem_closeSibling_iff.mpr (.inr ⟨_, hjoin, rfl⟩))⟩
  · cases heq

/-- The commands about an event that is no completion event close the branch if they close the tasks
at the step. -/
theorem exists_closeBranch (hb : b.Of p) {e : EventName} (he : e.joinPolicy? = none) {t : Task}
    {tasks : List Task} {o : DispatchOptions} {batch : Option String} {status : TaskStatus}
    {comment : String}
    (h : .finishPending b.node.id batch status comment ∈
      decideTaskFinished e t (.ofParts p.table tasks) o) :
    ∃ comment, .closeBranch b.gateway.id b.node.id .rejected comment ∈
      decideTaskFinished e t (.ofParts p.table tasks) o := by
  cases e with
  | taskParallelPass => cases he
  | taskInclusionPass => cases he
  | concurrentRejectCleanup => exact exists_closeBranch_of_cleanup hb h
  | gatewayConditionReject => exact exists_closeBranch_of_cleanup hb h
  | _ => cases List.mem_singleton.mp h

/-- An event that is no completion event leaves the branch secured: either it is about other tasks,
or it closes the branch together with the tasks. -/
theorem secured_of_no_completion (h : b.Secured (Store.wiring hooks autoPass dispatch) start moves)
    (hb : b.Of p)
    (hkept : b.Kept p batch (start.play (Store.wiring hooks autoPass dispatch) moves).engine)
    (hinst : q.instanceId = b.inst) (he : e.joinPolicy? = none) :
    b.Secured (Store.wiring hooks autoPass dispatch) start
      (moves ++ [.handle (.taskFinished e q)]) := by
  have hcommands := Store.commands_taskFinished (hinst ▸ hkept.definition) dispatch e
  by_cases hfinish : ∃ batch status comment, .finishPending b.node.id batch status comment ∈
      (start.play (Store.wiring hooks autoPass dispatch) moves).engine.commands dispatch
        (.taskFinished e q)
  · obtain ⟨batch, status, comment, hmem⟩ := hfinish
    rw [hcommands] at hmem
    obtain ⟨comment, hclose⟩ := exists_closeBranch hb he hmem
    rw [← hcommands] at hclose
    exact secured_of_closeBranch hinst hclose
  · refine h.handle (fun _ node batch status comment hmem heq => ?_) fun t _ _ q' heq => ?_
    · exact hfinish ⟨batch, status, comment, heq ▸ hmem⟩
    · injection heq with heq _
      rw [heq, hb.event] at he
      cases he

/-- So does a completion event that is about a task at another node. -/
theorem secured_of_other_node (h : b.Secured (Store.wiring hooks autoPass dispatch) start moves)
    (hkept : b.Kept p batch (start.play (Store.wiring hooks autoPass dispatch) moves).engine)
    (hinst : q.instanceId = b.inst) {policy : JoinPolicy} (he : e.joinPolicy? = some policy)
    (hnode : ((start.play (Store.wiring hooks autoPass dispatch) moves).engine.current q).nodeId ≠
      b.node.id) :
    b.Secured (Store.wiring hooks autoPass dispatch) start
      (moves ++ [.handle (.taskFinished e q)]) := by
  have hcommands := Store.commands_taskFinished (hinst ▸ hkept.definition) dispatch e
  refine h.handle (fun _ node batch status comment hmem heq => ?_)
    fun t ht hwaits q' heq hinst' hid => ?_
  · rw [hcommands, decideTaskFinished_eq he] at hmem
    split at hmem
    · cases hmem
    rcases mem_closeBatch_iff.mp hmem with ⟨g, -, heq'⟩ | ⟨-, heq'⟩
    · cases heq'
    · injection heq' with hnode' _ _ _
      exact hnode (hnode'.symm.trans heq)
  · injection heq with _ hq
    rw [← hq] at hinst' hid
    rw [hwaits.current_eq hid hinst'] at hnode
    exact hnode (mem_tasks_iff.mp ht).2.2

/-- So does a verdict on a task at the step: it closes the branch, or it is about other gateways. -/
theorem secured_of_verdict (h : b.Secured (Store.wiring hooks autoPass dispatch) start moves)
    (hb : b.Of p)
    (hkept : b.Kept p batch (start.play (Store.wiring hooks autoPass dispatch) moves).engine)
    (hinst : q.instanceId = b.inst) {policy : JoinPolicy} (he : e.joinPolicy? = some policy)
    (hq : (start.play (Store.wiring hooks autoPass dispatch) moves).engine.current q ∈
      b.tasks (start.play (Store.wiring hooks autoPass dispatch) moves).engine)
    {outcome : BranchOutcome} (hverdict : (Snapshot.ofParts p.table
      ((start.play (Store.wiring hooks autoPass dispatch) moves).engine.tasksOf b.inst)).verdict?
        policy ((start.play (Store.wiring hooks autoPass dispatch) moves).engine.current q) =
          some outcome) :
    b.Secured (Store.wiring hooks autoPass dispatch) start
      (moves ++ [.handle (.taskFinished e q)]) := by
  have hcommands := Store.commands_taskFinished (hinst ▸ hkept.definition) dispatch e
  rw [decideTaskFinished_eq he, hinst, hverdict] at hcommands
  by_cases hpolicy : policy = b.policy
  · -- the event is about gateways like this one, and they are closed
    obtain ⟨-, -, hnode⟩ := mem_tasks_iff.mp hq
    have hjoin := gateway_mem_joinsAfter hb
      ((start.play (Store.wiring hooks autoPass dispatch) moves).engine.tasksOf b.inst)
      (.inr (congrArg some hpolicy))
    rw [← hnode] at hjoin
    have hclose : .closeBranch b.gateway.id b.node.id outcome (dispatch.closingComment outcome) ∈
        (start.play (Store.wiring hooks autoPass dispatch) moves).engine.commands dispatch
          (.taskFinished e q) := by
      rw [hcommands, ← hnode]
      exact mem_closeBatch_iff.mpr (.inl ⟨b.gateway.id, hjoin, rfl⟩)
    exact secured_of_closeBranch hinst hclose
  -- other gateways are closed, and perhaps tasks with them
  have hnot : ∀ q', EngineEvent.taskFinished e q ≠ .taskFinished b.event q' := by
    intro q' heq
    injection heq with heq _
    rw [heq, hb.event] at he
    exact hpolicy (Option.some.inj he).symm
  refine h.concat (Dispatcher.settles_handle _ _) (fun h => h.handle _)
    (fun t _ _ _ q' heq => absurd (Move.handle.inj heq) (hnot q')) fun hall t ht hnext => ?_
  -- nothing decisive happened, so no task of the batch is left to be closed
  refine Secured.handle (.undecided hall t ht hnext) (fun _ node batch status comment hmem _ => ?_)
    fun t _ _ q' heq => absurd heq (hnot q')
  rw [hcommands] at hmem
  rcases mem_closeBatch_iff.mp hmem with ⟨g, -, heq⟩ | ⟨hpending, -⟩
  · cases heq
  · exact hall.not_pending hb hkept hq hverdict hpending

/-- **A delivery leaves the branch secured.** -/
theorem secured_delivers (h : b.Secured (Store.wiring hooks autoPass dispatch) start moves)
    (hb : b.Of p)
    (hkept : b.Kept p batch (start.play (Store.wiring hooks autoPass dispatch) moves).engine)
    (hm : m.Delivers (start.play (Store.wiring hooks autoPass dispatch) moves).engine e q) :
    b.Secured (Store.wiring hooks autoPass dispatch) start (moves ++ [m]) := by
  have hcurrent := hm.current_mem
  obtain ⟨rfl, -⟩ := hm
  by_cases hinst : q.instanceId = b.inst
  swap
  · refine h.handle (fun heq => absurd heq hinst) fun t _ _ q' heq hinst' => ?_
    injection heq with _ hq
    exact absurd (hq ▸ hinst') hinst
  cases he : e.joinPolicy? with
  | none => exact secured_of_no_completion h hb hkept hinst he
  | some policy =>
    obtain ⟨hmem, hat⟩ := List.mem_filter.mp (List.mem_of_find?_eq_some hcurrent)
    by_cases hnode : ((start.play (Store.wiring hooks autoPass dispatch) moves).engine.current
        q).nodeId = b.node.id
    swap
    · exact secured_of_other_node h hkept hinst he hnode
    have hq := mem_tasks_iff.mpr ⟨hmem, (beq_iff_eq.mp hat).trans hinst, hnode⟩
    cases hverdict : (Snapshot.ofParts p.table
        ((start.play (Store.wiring hooks autoPass dispatch) moves).engine.tasksOf b.inst)).verdict?
          policy ((start.play (Store.wiring hooks autoPass dispatch) moves).engine.current q) with
    | none =>
      refine secured_unheeded h hb hkept he hverdict ?_
      rw [Dispatcher.engine_move_handle,
        Store.commands_taskFinished (hinst ▸ hkept.definition) dispatch e,
        decideTaskFinished_eq he, hinst, hverdict]
      rfl
    | some outcome => exact secured_of_verdict h hb hkept hinst he hq hverdict

/-- **The branch stays secured throughout.** -/
theorem secured_play (hb : b.Of p) (hkept : b.Kept p batch start.engine)
    (hsecured : b.Secured (Store.wiring hooks autoPass dispatch) start [])
    (hmoves : Dispatcher.Along (Store.wiring hooks autoPass dispatch) start Move.Works moves) :
    b.Kept p batch (start.play (Store.wiring hooks autoPass dispatch) moves).engine ∧
      b.Secured (Store.wiring hooks autoPass dispatch) start moves := by
  refine Dispatcher.play_induction (motive := fun moves =>
    b.Kept p batch (start.play (Store.wiring hooks autoPass dispatch) moves).engine ∧
      b.Secured (Store.wiring hooks autoPass dispatch) start moves) ⟨hkept, hsecured⟩ ?_ hmoves
  rintro moves m ⟨hkept, hsecured⟩ hm
  constructor
  · rw [Dispatcher.play_concat]
    exact hkept.settles hm.settles (hm.definitionFor? b.inst)
  · have hsettles : (start.play (Store.wiring hooks autoPass dispatch) moves).engine.Settles
        ((start.play _ moves).move (Store.wiring hooks autoPass dispatch) m).engine := hm.settles
    rcases hm with ⟨t, ht⟩ | ⟨e, q, hq⟩
    · exact secured_decides hsecured hsettles ht
    · exact secured_delivers hsecured hb hkept hq

end Deliveries

end Branch

namespace Dispatcher

variable {hooks : HookEvent → Except FlowError Unit} {autoPass : AutoPassOptions}
  {dispatch : DispatchOptions} {start : Dispatcher Store} {moves : List Move}

/-- Was each decision on a task at the step followed by every completion event that the step
subscribes to? -/
def Answered (w : Wiring Store) (start : Dispatcher Store) (inst : String) (n : ProcessNode)
    (moves : List Move) : Prop :=
  ∀ pre m post, moves = pre ++ m :: post → ∀ t, m.Decides (start.play w pre).engine t →
    t.instanceId = inst → t.nodeId = n.id → ∀ e : EventName, e.joinPolicy?.isSome →
      n.subscribesTo e = true → ∃ q, q.id = t.id ∧ q.instanceId = inst ∧
        .handle (.taskFinished e q) ∈ post

/-- **No branch is lost.** Tasks of one batch were created at an approval step; since then approvers
decided on open tasks and events were delivered, in any order. If all tasks at the step are finished,
and each decision on one of them was followed by the completion events that the step subscribes to,
then the branch is closed at every gateway that lists the step. -/
theorem no_branch_lost {dia : Diagram} {options : CompilerOptions} {name inst batch : String}
    {p : ProcessDefinition} (hd : dia.Unambiguous) (hc : dia.compile options name = .ok p)
    (hstart : start.engine.definitionFor? inst = some p) {n : ProcessNode} (hn : n ∈ p.nodes)
    (happroval : n.type = .approval) (hsome : start.engine.tasksAt inst n.id ≠ [])
    (hnew : ∀ t ∈ start.engine.tasksAt inst n.id,
      t.batch = batch ∧ t.status = .pending ∧ t.finished = false)
    (hmoves : Along (Store.wiring hooks autoPass dispatch) start Move.Works moves)
    (hfinished : ∀ t ∈ (start.play (Store.wiring hooks autoPass dispatch) moves).engine.tasksAt
      inst n.id, t.finished = true)
    (hanswered : Answered (Store.wiring hooks autoPass dispatch) start inst n moves) :
    ∀ g ∈ p.nodes, g.isConcurrentJoin = true → n.id ∈ g.predecessorIds →
      ∃ c ∈ (start.play (Store.wiring hooks autoPass dispatch) moves).engine.closed,
        c.instanceId = inst ∧ c.gateway = g.id ∧ c.predecessor = n.id := by
  intro g hg hjoin hlists
  obtain ⟨hgate, policy, e, hpolicy, he⟩ := ProcessNode.exists_event_of_isConcurrentJoin hjoin
  set b : Branch := ⟨inst, n, g, policy, e⟩ with hbdef
  have hb : b.Of p := ⟨hd.nodup_ids hc, hn, hg, hjoin, hpolicy, he, hlists⟩
  have hkept : b.Kept p batch start.engine :=
    ⟨hstart, fun t ht => (hnew t ht).1, fun t ht _ => (hnew t ht).2.1⟩
  have hsecured : b.Secured (Store.wiring hooks autoPass dispatch) start [] := by
    obtain ⟨t, ht⟩ := List.exists_mem_of_ne_nil _ hsome
    exact .undecided (fun u hu => .inl (hnew u hu).2.2) t ht (.inl (hnew t ht).2.2)
  -- nothing is yet to come of a decision that was answered
  have hnone : ∀ t, ¬ b.Waits (Store.wiring hooks autoPass dispatch) start moves t := by
    intro t hwaits
    obtain ⟨pre, m, post, u, heq, hdecides, hu, hid, hpost⟩ := hwaits.unanswered
    obtain ⟨-, hinst, hnode⟩ := Branch.mem_tasks_iff.mp hu
    have hsubscribes := hd.subscribes_of_join hc hg hgate hn happroval hlists he hpolicy
    obtain ⟨q, hqid, hqinst, hmem⟩ :=
      hanswered pre m post heq u hdecides hinst hnode e (by rw [he]; rfl) hsubscribes
    exact hpost q (hqid.trans hid) hqinst hmem
  cases (Branch.secured_play hb hkept hsecured hmoves).2 with
  | closed h => exact h
  | decisive t ht hdecisive hwaits => exact absurd hwaits (hnone t)
  | undecided hall t ht hnext =>
    rcases hnext with hopen | hwaits
    · rw [hfinished t ht] at hopen
      cases hopen
    · exact absurd hwaits (hnone t)

/-- What the choice in front of two gateways is compiled to. -/
def chainedDefinition : ProcessDefinition :=
  (Diagram.chained.compile {} "chained").toOption.getD ⟨"chained", []⟩

/-- Two approvers who have to agree. -/
def cosigners : List Move :=
  [.call (.submit chainedDefinition), .call (.startInstance "proc-1"),
    .call (.createTask "inst-1" "U" "b" "ann" true), .call (.createTask "inst-1" "U" "b" "bob" true)]

/-- A task of one of them, before it is decided. -/
def cosignedTask (id user : String) : Task :=
  ⟨id, "inst-1", "U", "b", user, .pending, false, true, ""⟩

/-- One of them agrees, and the event comes too early. Then the other disagrees. -/
def disagreement : List Move :=
  [.call (.completeTask "task-1" .passed "yes"),
    .handle (.taskFinished .taskParallelPass (cosignedTask "task-1" "ann")),
    .call (.completeTask "task-2" .rejected "no"),
    .handle (.taskFinished .taskParallelPass (cosignedTask "task-2" "bob"))]

theorem no_branch_lost_disagreement :
    let w := Store.wiring (fun _ => .ok ()) {} {}
    ∃ c ∈ ((initial.play w cosigners).play w disagreement).engine.closed,
      c.instanceId = "inst-1" ∧ c.gateway = "Q" ∧ c.predecessor = "U" := by
  intro w
  have hd : Diagram.chained.Unambiguous := by decide
  have hc : Diagram.chained.compile {} "chained" = .ok chainedDefinition := rfl
  obtain ⟨n, hn, hid, happroval, hother⟩ : ∃ n ∈ chainedDefinition.nodes, n.id = "U" ∧
      n.type = .approval ∧ n.subscribesTo .taskInclusionPass = false := by decide
  obtain ⟨g, hg, hgid, hjoin, hlists⟩ : ∃ g ∈ chainedDefinition.nodes, g.id = "Q" ∧
      g.isConcurrentJoin = true ∧ "U" ∈ g.predecessorIds := by decide
  have hmoves : Along w (initial.play w cosigners) Move.Works disagreement := by
    refine Along.cons_iff.mpr ⟨.inl ⟨cosignedTask "task-1" "ann", by decide, rfl, ?_⟩, ?_⟩
    · exact .inr ⟨.passed, "yes", .inl rfl, rfl⟩
    refine Along.cons_iff.mpr ⟨.inr ⟨_, _, rfl, by decide⟩, ?_⟩
    refine Along.cons_iff.mpr ⟨.inl ⟨cosignedTask "task-2" "bob", by decide, rfl, ?_⟩, ?_⟩
    · exact .inr ⟨.rejected, "no", .inr rfl, rfl⟩
    exact Along.cons_iff.mpr ⟨.inr ⟨_, _, rfl, by decide⟩, .nil w _ _⟩
  -- the step subscribes to the events of parallel gateways only, and both were delivered
  have hevent : ∀ e : EventName, e.joinPolicy?.isSome → n.subscribesTo e = true →
      e = .taskParallelPass := by
    intro e he hsubscribes
    cases e with
    | taskParallelPass => rfl
    | taskInclusionPass =>
      rw [hother] at hsubscribes
      cases hsubscribes
    | _ => cases he
  have hanswered : Answered w (initial.play w cosigners) "inst-1" n disagreement := by
    unfold Answered disagreement
    simp only [forall_split_cons, forall_split_nil, and_true]
    refine ⟨fun t ht _ _ e he hn => ?_, fun t ht => absurd rfl (ht.ne_handle _),
      fun t ht _ _ e he hn => ?_, fun t ht => absurd rfl (ht.ne_handle _)⟩
    · obtain rfl := hevent e he hn
      exact ⟨cosignedTask "task-1" "ann", ht.id_eq, rfl, by decide⟩
    · obtain rfl := hevent e he hn
      exact ⟨cosignedTask "task-2" "bob", ht.id_eq, rfl, by decide⟩
  have hnew : ∀ t ∈ (initial.play w cosigners).engine.tasksAt "inst-1" n.id,
      t.batch = "b" ∧ t.status = .pending ∧ t.finished = false := by
    rw [hid]
    decide
  have hlost := no_branch_lost hd hc (by decide) hn happroval (by rw [hid]; decide)
    hnew hmoves (by rw [hid]; decide) hanswered g hg hjoin (hid ▸ hlists)
  rwa [hgid, hid] at hlost

end Dispatcher

end ApprovalFlow
