import ApprovalFlow.Proofs.History.Moves

/-!
# A batch is closed in one way

The events of a batch come in any order and any number of times, and each is judged by the tasks as
they are at that moment. Two of them could judge differently, one closing the branches of the batch
as passed and one as rejected. They do not, because each kind of verdict leaves its mark on the
tasks, and the marks exclude each other.

- `Store.Orderly`: open tasks are pending, which is so from the beginning.
- `Store.Cleared`: the mark of a batch closed as passed: no task is open and none was rejected.
- `Store.Barred`: the mark of a batch closed as rejected: a task was rejected, for ever.
- `Dispatcher.cleared_of_closes`, `Dispatcher.barred_of_closes`: who closes leaves the mark.
- `Dispatcher.not_rejected_later`, `Dispatcher.not_passed_later`: it excludes the other outcome.
- `Dispatcher.outcomes_never_mix`: **a batch that is closed as passed is never closed as rejected**,
  neither before nor after.
-/

namespace ApprovalFlow

/-- Is this a task of the batch? -/
def Task.In (inst node batch : String) (t : Task) : Prop :=
  t.instanceId = inst ∧ t.nodeId = node ∧ t.batch = batch

/-- Does the move add a task to the batch? -/
def Move.Adds (inst node batch : String) (m : Move) : Prop :=
  ∃ user cosigned, m = .call (.createTask inst node batch user cosigned)

namespace Store

/-- Open tasks are pending. -/
def Orderly (s : Store) : Prop := ∀ t ∈ s.tasks, t.finished = false → t.status = .pending

/-- No task of the batch is open, and none was rejected. -/
def Cleared (inst node batch : String) (s : Store) : Prop :=
  ∀ t ∈ s.tasks, t.In inst node batch → t.finished = true ∧ t.status ≠ .rejected

/-- A task of the batch was rejected. -/
def Barred (inst node batch : String) (s : Store) : Prop :=
  ∃ t ∈ s.tasks, t.In inst node batch ∧ t.finished = true ∧ t.status = .rejected

variable {s s' : Store} {inst node batch : String}

/-! ## Settling keeps the marks -/

theorem Orderly.settles (hs : s.Orderly) (h : s.Settles s') : s'.Orderly := fun t ht hopen =>
  hs t (h.unfinished ht hopen) hopen

theorem Cleared.settles (hs : s.Cleared inst node batch) (h : s.Settles s') :
    s'.Cleared inst node batch := by
  intro t ht hin
  obtain ⟨u, hu, hut⟩ := h.back ht
  obtain ⟨-, hinst, hnode, hbatch⟩ := hut.origin
  have huin : u.In inst node batch :=
    ⟨hinst.symm.trans hin.1, hnode.symm.trans hin.2.1, hbatch.symm.trans hin.2.2⟩
  obtain ⟨hfinished, hstatus⟩ := hs u hu huin
  obtain rfl := hut.eq_of_finished hfinished
  exact ⟨hfinished, hstatus⟩

theorem Barred.settles (hs : s.Barred inst node batch) (h : s.Settles s') :
    s'.Barred inst node batch := by
  obtain ⟨t, ht, hin, hfinished, hstatus⟩ := hs
  exact ⟨t, h.finished ht hfinished, hin, hfinished, hstatus⟩

/-! ## So does creating tasks -/

theorem Orderly.createTask (hs : s.Orderly) (inst node batch user : String) (cosigned : Bool) :
    (s.createTask inst node batch user cosigned).2.Orderly := by
  intro t ht hopen
  rcases List.mem_append.mp ht with ht | ht
  · exact hs t ht hopen
  · rw [List.mem_singleton.mp ht]

/-- The mark of a passed batch stays unless the new task is one of the batch. -/
theorem Cleared.createTask (hs : s.Cleared inst node batch) {inst' node' batch' user : String}
    {cosigned : Bool} (hother : ¬ (inst' = inst ∧ node' = node ∧ batch' = batch)) :
    (s.createTask inst' node' batch' user cosigned).2.Cleared inst node batch := by
  intro t ht hin
  rcases List.mem_append.mp ht with ht | ht
  · exact hs t ht hin
  · rw [List.mem_singleton.mp ht] at hin
    exact absurd hin hother

theorem Barred.createTask (hs : s.Barred inst node batch) (inst' node' batch' user : String)
    (cosigned : Bool) :
    (s.createTask inst' node' batch' user cosigned).2.Barred inst node batch := by
  obtain ⟨t, ht, hmark⟩ := hs
  exact ⟨t, List.mem_append_left _ ht, hmark⟩

theorem Cleared.not_barred (hs : s.Cleared inst node batch) : ¬ s.Barred inst node batch := by
  rintro ⟨t, ht, hin, -, hstatus⟩
  exact (hs t ht hin).2 hstatus

end Store

namespace Dispatcher

variable {hooks : HookEvent → Except FlowError Unit} {autoPass : AutoPassOptions}
  {dispatch : DispatchOptions} {d : Dispatcher Store} {inst node batch : String}
  {event : EngineEvent} {outcome : BranchOutcome} {moves : List Move}

/-! ## Closing leaves a mark -/

/-- Handling the event, a completion event for a task of the batch, closes branches of the batch. -/
def Closes (w : Wiring Store) (d : Dispatcher Store) (event : EngineEvent)
    (inst node batch : String) (outcome : BranchOutcome) : Prop :=
  ∃ e q, event = .taskFinished e q ∧ e.joinPolicy?.isSome ∧
    q.instanceId = inst ∧ (d.engine.current q).nodeId = node ∧ (d.engine.current q).batch = batch ∧
    ∃ report d' gateway comment, handle w event d = .ok report d' ∧
      .closeBranch gateway node outcome comment ∈ report.commands

/-- Who closes a batch does so by a verdict on a task of it, and carries out the commands of the
verdict and no others. -/
theorem verdict_of_closes
    (h : Closes (Store.wiring hooks autoPass dispatch) d event inst node batch outcome) :
    ∃ q policy, ∃ p : ProcessDefinition, ∃ gateways comment, event.instanceId = inst ∧
      (d.engine.current q).nodeId = node ∧ (d.engine.current q).batch = batch ∧
      (Snapshot.ofParts p.table (d.engine.tasksOf inst)).verdict? policy (d.engine.current q) =
        some outcome ∧
      d.engine.commands dispatch event = closeBatch (d.engine.current q) gateways outcome comment
        ((Ledger.ofTasks p.table (d.engine.tasksOf inst)).tally node batch).pending := by
  obtain ⟨e, q, rfl, he, rfl, rfl, rfl, report, d', gateway, comment, hhandle, hmem⟩ := h
  obtain ⟨policy, he⟩ := Option.isSome_iff_exists.mp he
  obtain ⟨⟨p, hp⟩, hreport⟩ := exists_definition_of_handle hhandle
  have hcommands := Store.commands_taskFinished hp dispatch e
  rw [decideTaskFinished_eq he] at hcommands
  rw [hreport, hcommands] at hmem
  cases hverdict : (Snapshot.ofParts p.table (d.engine.tasksOf q.instanceId)).verdict? policy
      (d.engine.current q) with
  | none =>
    rw [hverdict] at hmem
    cases hmem
  | some outcome' =>
    rw [hverdict] at hmem hcommands
    obtain rfl : outcome = outcome' := by
      rcases mem_closeBatch_iff.mp hmem with ⟨g, -, heq⟩ | ⟨-, heq⟩
      · cases heq
        rfl
      · cases heq
    exact ⟨q, policy, p, _, _, rfl, rfl, rfl, hverdict, hcommands⟩

/-- The tasks beside a task of a batch are the other tasks of the batch. -/
theorem beside_iff {t u : Task} (hnode : t.nodeId = node) (hbatch : t.batch = batch) :
    u ∈ d.engine.tasksOf inst ∧ Snapshot.Beside t u ↔ u ∈ d.engine.tasks ∧ u.In inst node batch := by
  unfold Store.tasksOf Snapshot.Beside Task.In
  rw [List.mem_filter, beq_iff_eq, hnode, hbatch, and_assoc]

/-- A batch that is closed as rejected was barred before. -/
theorem barred_of_closes (hs : d.engine.Orderly)
    (h : Closes (Store.wiring hooks autoPass dispatch) d event inst node batch .rejected) :
    d.engine.Barred inst node batch := by
  obtain ⟨q, policy, p, gateways, comment, -, hnode, hbatch, hverdict, -⟩ := verdict_of_closes h
  obtain ⟨-, u, hu, hbeside, hstatus⟩ := Snapshot.verdict?_eq_rejected_iff.mp hverdict
  obtain ⟨hu, hin⟩ := (beside_iff hnode hbatch).mp ⟨hu, hbeside⟩
  refine ⟨u, hu, hin, ?_, hstatus⟩
  -- an open task would be pending
  by_contra hopen
  rw [hs u hu (Bool.eq_false_iff.mpr hopen)] at hstatus
  cases hstatus

/-- A batch that is closed as passed was not barred before. -/
theorem not_barred_of_closes
    (h : Closes (Store.wiring hooks autoPass dispatch) d event inst node batch .passed) :
    ¬ d.engine.Barred inst node batch := by
  obtain ⟨q, policy, p, gateways, comment, -, hnode, hbatch, hverdict, -⟩ := verdict_of_closes h
  obtain ⟨-, hnone, -⟩ := Snapshot.verdict?_eq_passed_iff.mp hverdict
  rintro ⟨u, hu, hin, -, hstatus⟩
  obtain ⟨hu, hbeside⟩ := (beside_iff hnode hbatch).mpr ⟨hu, hin⟩
  exact hnone u hu hbeside hstatus

/-- What was open in a batch is closed with it. -/
theorem finished_of_closes (hs : d.engine.Orderly)
    (h : Closes (Store.wiring hooks autoPass dispatch) d event inst node batch outcome) {t : Task}
    (ht : t ∈ (d.move (Store.wiring hooks autoPass dispatch) (.handle event)).engine.tasks)
    (hin : t.In inst node batch) : t.finished = true := by
  obtain ⟨q, policy, p, gateways, comment, hinst, hnode, hbatch, -, hcommands⟩ :=
    verdict_of_closes h
  rw [engine_move_handle, hinst, hcommands] at ht
  by_contra hopen
  rw [Bool.not_eq_true] at hopen
  -- such a task was pending before, so the batch was closed for pending tasks, and this one too
  have hbefore := (Store.settles_foldl_obey inst _ _).unfinished ht hopen
  obtain ⟨hof, -⟩ := (beside_iff hnode hbatch).mpr ⟨hbefore, hin⟩
  have hpending : 0 < ((Ledger.ofTasks p.table (d.engine.tasksOf inst)).tally node batch).pending :=
    Ledger.pending_pos_iff.mpr ⟨t, hof, hin.2.1, hin.2.2, hs t hbefore hopen⟩
  have hclosed :=
    Store.finished_of_finishPending (mem_closeBatch_iff.mpr (.inr ⟨hpending, rfl⟩)) ht
  rw [Bool.eq_false_iff] at hclosed
  refine hclosed (Store.isOpenAt_iff.mpr ⟨hin.1, hin.2.1.trans hnode.symm, hopen, .inr ?_⟩)
  rw [hin.2.2, hbatch]

/-- **A batch that is closed as passed is cleared by that.** -/
theorem cleared_of_closes (hs : d.engine.Orderly)
    (h : Closes (Store.wiring hooks autoPass dispatch) d event inst node batch .passed) :
    (d.move (Store.wiring hooks autoPass dispatch) (.handle event)).engine.Cleared
      inst node batch := by
  obtain ⟨q, policy, p, gateways, comment, -, hnode, hbatch, hverdict, -⟩ := verdict_of_closes h
  obtain ⟨-, hnone, -⟩ := Snapshot.verdict?_eq_passed_iff.mp hverdict
  intro t ht hin
  refine ⟨finished_of_closes hs h ht hin, fun hstatus => ?_⟩
  rw [engine_heed] at ht
  obtain ⟨hof, hbeside⟩ :=
    (beside_iff hnode hbatch).mpr ⟨Store.mem_tasks_heed ht (.inr hstatus), hin⟩
  exact hnone t hof hbeside hstatus

/-! ## Histories keep the marks -/

/-- Open tasks are pending throughout. -/
theorem orderly_play (hd : d.engine.Orderly)
    (hmoves : Along (Store.wiring hooks autoPass dispatch) d Move.Fair moves) :
    (d.play (Store.wiring hooks autoPass dispatch) moves).engine.Orderly := by
  refine play_induction (motive := fun moves =>
    (d.play (Store.wiring hooks autoPass dispatch) moves).engine.Orderly) hd ?_ hmoves
  intro moves m ih hm
  rw [play_concat]
  rcases settles_move hm with h | ⟨inst, node, batch, user, cosigned, rfl⟩
  · exact ih.settles h
  · exact ih.createTask inst node batch user cosigned

theorem barred_play (hd : d.engine.Barred inst node batch)
    (hmoves : Along (Store.wiring hooks autoPass dispatch) d Move.Fair moves) :
    (d.play (Store.wiring hooks autoPass dispatch) moves).engine.Barred inst node batch := by
  refine play_induction (motive := fun moves =>
    (d.play (Store.wiring hooks autoPass dispatch) moves).engine.Barred inst node batch) hd ?_ hmoves
  intro moves m ih hm
  rw [play_concat]
  rcases settles_move hm with h | ⟨inst', node', batch', user, cosigned, rfl⟩
  · exact ih.settles h
  · exact ih.createTask ..

/-- A batch that is cleared stays so, unless a task is added to it. -/
theorem cleared_play (hd : d.engine.Cleared inst node batch)
    (hmoves : Along (Store.wiring hooks autoPass dispatch) d
      (fun s m => m.Fair s ∧ ¬ m.Adds inst node batch) moves) :
    (d.play (Store.wiring hooks autoPass dispatch) moves).engine.Cleared inst node batch := by
  refine play_induction (motive := fun moves =>
    (d.play (Store.wiring hooks autoPass dispatch) moves).engine.Cleared inst node batch) hd ?_ hmoves
  intro moves m ih hm
  rw [play_concat]
  rcases settles_move hm.1 with h | ⟨inst', node', batch', user, cosigned, rfl⟩
  · exact ih.settles h
  · refine ih.createTask ?_
    rintro ⟨rfl, rfl, rfl⟩
    exact hm.2 ⟨user, cosigned, rfl⟩

/-- A batch that was closed as passed is not closed as rejected later. -/
theorem not_rejected_later (hd : d.engine.Orderly)
    (hpassed : Closes (Store.wiring hooks autoPass dispatch) d event inst node batch .passed)
    (hmoves : Along (Store.wiring hooks autoPass dispatch)
      (d.move (Store.wiring hooks autoPass dispatch) (.handle event))
      (fun s m => m.Fair s ∧ ¬ m.Adds inst node batch) moves) (event' : EngineEvent) :
    ¬ Closes (Store.wiring hooks autoPass dispatch)
      ((d.move (Store.wiring hooks autoPass dispatch) (.handle event)).play
        (Store.wiring hooks autoPass dispatch) moves) event' inst node batch .rejected := by
  intro hrejected
  have hcleared := cleared_play (cleared_of_closes hd hpassed) hmoves
  have horderly := orderly_play (hd.settles (settles_handle event d))
    fun pre m post heq => (hmoves pre m post heq).1
  exact hcleared.not_barred (barred_of_closes horderly hrejected)

/-- A batch that was closed as rejected is not closed as passed by that event or later. -/
theorem not_passed_later (hd : d.engine.Orderly)
    (hrejected : Closes (Store.wiring hooks autoPass dispatch) d event inst node batch .rejected)
    (hmoves : Along (Store.wiring hooks autoPass dispatch) d Move.Fair moves)
    (event' : EngineEvent) :
    ¬ Closes (Store.wiring hooks autoPass dispatch)
      (d.play (Store.wiring hooks autoPass dispatch) moves) event' inst node batch .passed := by
  intro hpassed
  exact not_barred_of_closes hpassed (barred_play (barred_of_closes hd hrejected) hmoves)

/-- All tasks of a batch are created before the first completion event for a task of it. -/
def CreatedUpFront (w : Wiring Store) (d : Dispatcher Store) (moves : List Move) : Prop :=
  ∀ pre m post, moves = pre ++ m :: post → ∀ e q, m = .handle (.taskFinished e q) →
    e.joinPolicy?.isSome → ∀ user cosigned,
      .call (.createTask q.instanceId ((d.play w pre).engine.current q).nodeId
        ((d.play w pre).engine.current q).batch user cosigned) ∉ post

/-- **A batch that is closed as passed is never closed as rejected**, neither before nor after, if
its tasks are created up front and approvers decide only on open tasks. -/
theorem outcomes_never_mix
    (hfair : Along (Store.wiring hooks autoPass dispatch) initial Move.Fair moves)
    (hcreated : CreatedUpFront (Store.wiring hooks autoPass dispatch) initial moves)
    {pre post : List Move} (hmoves : moves = pre ++ .handle event :: post)
    (hpassed : Closes (Store.wiring hooks autoPass dispatch)
      (initial.play (Store.wiring hooks autoPass dispatch) pre) event inst node batch .passed)
    {pre' post' : List Move} {event' : EngineEvent}
    (hmoves' : moves = pre' ++ .handle event' :: post') :
    ¬ Closes (Store.wiring hooks autoPass dispatch)
      (initial.play (Store.wiring hooks autoPass dispatch) pre') event' inst node batch
        .rejected := by
  intro hrejected
  have hbegin : (initial : Dispatcher Store).engine.Orderly := fun t ht => nomatch ht
  have horderly : (initial.play (Store.wiring hooks autoPass dispatch) pre).engine.Orderly :=
    orderly_play hbegin (hmoves ▸ hfair).left
  have horderly' : (initial.play (Store.wiring hooks autoPass dispatch) pre').engine.Orderly :=
    orderly_play hbegin (hmoves' ▸ hfair).left
  rcases List.append_eq_append_iff.mp (hmoves.symm.trans hmoves') with
    ⟨mid, hpre', hrest⟩ | ⟨mid, hpre, hrest⟩
  · cases mid with
    | nil =>
      -- one and the same event
      rw [hpre', List.append_nil] at hrejected horderly'
      exact not_passed_later horderly' hrejected (.nil _ _ _) event hpassed
    | cons m mid =>
      -- the batch was passed first
      obtain ⟨rfl, rfl⟩ := List.cons.inj hrest
      have hsplit : moves = pre ++ .handle event :: (mid ++ .handle event' :: post') := hmoves
      rw [hpre', play_append] at hrejected
      refine not_rejected_later horderly hpassed (fun before m after hmid => ⟨?_, ?_⟩) event'
        hrejected
      · have hrest := (hsplit ▸ hfair).right
        exact (Along.cons_iff.mp hrest).2.left before m after hmid
      · rintro ⟨user, cosigned, heq⟩
        obtain ⟨e, q, rfl, he, rfl, rfl, rfl, -⟩ := hpassed
        refine hcreated pre _ _ hsplit e q rfl he user cosigned ?_
        rw [← heq, hmid]
        exact List.mem_append_left _ (List.mem_append_right _ List.mem_cons_self)
  · -- the batch was rejected first
    have hfair' : Along (Store.wiring hooks autoPass dispatch) initial Move.Fair (pre' ++ mid) :=
      hpre ▸ (hmoves ▸ hfair).left
    rw [hpre, play_append] at hpassed
    exact not_passed_later horderly' hrejected hfair'.right event hpassed

/-- The tasks of two approvers, of whom one has to agree. -/
def bothTasks (id user : String) : Task :=
  ⟨id, "inst-1", "U", "b", user, .pending, false, false, ""⟩

/-- In front of a parallel gateway one of two approvers agrees, and the events of both are
delivered. -/
def agreement : List Move :=
  [.call (.submit ⟨"agreement", [{ id := "U", name := "U", type := .approval },
    { id := "Q", name := "Q", type := .gateway, predecessorIds := ["U"],
      gateway := some { joinPolicy := .waitAll } }]⟩),
    .call (.startInstance "proc-1"), .call (.createTask "inst-1" "U" "b" "ann" false),
    .call (.createTask "inst-1" "U" "b" "bob" false), .call (.completeTask "task-1" .passed "yes"),
    .handle (.taskFinished .taskParallelPass (bothTasks "task-1" "ann")),
    .handle (.taskFinished .taskParallelPass (bothTasks "task-2" "bob"))]

theorem outcomes_never_mix_agreement :
    let w := Store.wiring (fun _ => .ok ()) {} {}
    ∀ pre' event' post', agreement = pre' ++ .handle event' :: post' →
      ¬ Closes w (initial.play w pre') event' "inst-1" "U" "b" .rejected := by
  intro w pre' event' post' hmoves'
  have hfair : Along w initial Move.Fair agreement := by decide
  have hcreated : CreatedUpFront w initial agreement := by
    unfold CreatedUpFront agreement
    simp only [forall_split_cons, forall_split_nil]
    simp
  have hpassed : Closes w (initial.play w (agreement.take 5))
      (.taskFinished .taskParallelPass (bothTasks "task-1" "ann")) "inst-1" "U" "b" .passed := by
    have hmem : .closeBranch "Q" "U" .passed "closed by system: branch approved" ∈
        (initial.play w (agreement.take 5)).engine.commands {}
          (.taskFinished .taskParallelPass (bothTasks "task-1" "ann")) := by decide
    exact ⟨_, _, rfl, rfl, rfl, by decide, by decide, _, _, "Q", _, handle_ok hmem rfl, hmem⟩
  exact outcomes_never_mix hfair hcreated rfl hpassed hmoves'

end Dispatcher

end ApprovalFlow
