import ApprovalFlow.Proofs.Dispatch.Cosigning
import ApprovalFlow.Proofs.Engine.Coherent
import ApprovalFlow.Proofs.History.Outcomes

/-!
# Events that are delivered again

Whoever delivers events may deliver one twice. The second time it is judged by tasks that the first
time changed: open ones may have been closed, even the task of the event, so fewer are pending. Still
nothing new is decided. What could be closed is closed, and the statuses that the system gives are
none that a verdict goes by.

- `Store.tasks_heed_heed`: who closes open tasks only where that was done before changes no task.
- `Store.finishPending_mem_again`: the second time no open tasks are closed elsewhere.
- `Store.verdict?_heed`: a verdict stands after the pending tasks were closed.
- `Dispatcher.handle_twice`: **an event that is delivered again changes no task, and it closes the
  same branches again.**
-/

namespace ApprovalFlow

namespace Store

variable {s s' : Store} {o : DispatchOptions} {event : EngineEvent} {e : EventName} {q : Task}

/-! ## The copy of a task -/

theorem Settles.find?_eq_none (h : s.Settles s') {inst id : String}
    (hnone : (s.tasksOf inst).find? (fun t => t.id == id) = none) :
    (s'.tasksOf inst).find? (fun t => t.id == id) = none := by
  rw [List.find?_eq_none] at hnone ⊢
  intro u hu
  obtain ⟨hmem, hinst⟩ := List.mem_filter.mp hu
  obtain ⟨t, ht, hsettles⟩ := h.back hmem
  obtain ⟨hid, hinst', -⟩ := hsettles.origin
  rw [hinst'] at hinst
  rw [hid]
  exact hnone t (List.mem_filter.mpr ⟨ht, hinst⟩)

/-- The engine's copy of a task settles with the others. A task without one stays its own copy. -/
theorem Settles.settles_current (h : s.Settles s') (q : Task) :
    Task.Settles (s.current q) (s'.current q) := by
  unfold Store.current
  cases hfind : (s.tasksOf q.instanceId).find? fun u => u.id == q.id with
  | some t =>
    obtain ⟨u, hu, hsettles⟩ := h.exists_find? hfind
    rw [hu]
    exact hsettles
  | none =>
    rw [h.find?_eq_none hfind]
    exact .same

/-- Where flag and status agree, a copy changes only while it is pending. -/
theorem Settles.current_eq (h : s.Settles s') (hs : s.Coherent)
    (hstatus : (s.current q).status ≠ .pending) : s'.current q = s.current q := by
  unfold Store.current at hstatus ⊢
  cases hfind : (s.tasksOf q.instanceId).find? fun u => u.id == q.id with
  | some t =>
    rw [hfind] at hstatus
    have ht : t ∈ s.tasks := (List.mem_filter.mp (List.mem_of_find?_eq_some hfind)).1
    rw [h.current hfind ((hs t ht).mpr hstatus)]
  | none =>
    rw [h.find?_eq_none hfind]

/-! ## Heeding an event -/

theorem settles_heed (o : DispatchOptions) (s : Store) (event : EngineEvent) :
    s.Settles (s.heed o event) :=
  settles_foldl_obey ..

theorem definitionFor?_heed (o : DispatchOptions) (s : Store) (event : EngineEvent)
    (inst : String) : (s.heed o event).definitionFor? inst = s.definitionFor? inst :=
  definitionFor?_foldl_obey inst

theorem closed_heed (o : DispatchOptions) (s : Store) (event : EngineEvent) :
    (s.heed o event).closed =
      s.closed ++ (s.commands o event).filterMap (·.closure? event.instanceId) :=
  closed_foldl_obey

theorem mem_tasksOf_heed {inst : String} {u : Task} (hu : u ∈ (s.heed o event).tasksOf inst)
    (hstatus : u.status = .pending ∨ u.status = .rejected) : u ∈ s.tasksOf inst := by
  obtain ⟨hu, hinst⟩ := List.mem_filter.mp hu
  exact List.mem_filter.mpr ⟨mem_tasks_heed hu hstatus, hinst⟩

/-- An event that closed no open tasks leads to the same commands again. -/
theorem commands_heed (h : ∀ node batch status comment,
    .finishPending node batch status comment ∉ s.commands o event) :
    (s.heed o event).commands o event = s.commands o event := by
  have htasks : (s.heed o event).tasks = s.tasks :=
    tasks_foldl_obey_of_closed fun node batch status comment hmem =>
      absurd hmem (h node batch status comment)
  refine commands_congr (definitionFor?_heed o s event _) ?_ o
  unfold tasksOf
  rw [htasks]

/-- **Who closes open tasks only where that was done before changes no task.** -/
theorem tasks_heed_heed (h : ∀ node batch status comment,
    .finishPending node batch status comment ∈ (s.heed o event).commands o event →
      ∃ status comment, .finishPending node batch status comment ∈ s.commands o event) :
    ((s.heed o event).heed o event).tasks = (s.heed o event).tasks := by
  refine tasks_foldl_obey_of_closed fun node batch status comment hmem t ht => ?_
  obtain ⟨status', comment', hfirst⟩ := h node batch status comment hmem
  exact finished_of_finishPending hfirst ht

/-! ## What a cleanup does again -/

/-- A cleanup leads to the same commands again, unless it closed the rejected task itself; then it
leads to none. -/
theorem commands_heed_cleanup (o : DispatchOptions) (s : Store) (he : e.isCleanup = true)
    (q : Task) :
    (s.heed o (.taskFinished e q)).commands o (.taskFinished e q) =
        s.commands o (.taskFinished e q) ∨
      (s.heed o (.taskFinished e q)).commands o (.taskFinished e q) = [] ∧
        (s.current q).isRejected = true ∧
        ((s.heed o (.taskFinished e q)).current q).isRejected = false := by
  have hnode : ((s.heed o (.taskFinished e q)).current q).nodeId = (s.current q).nodeId :=
    ((settles_heed o s (.taskFinished e q)).settles_current q).origin.2.2.1
  have hdefinition := definitionFor?_heed o s (.taskFinished e q) q.instanceId
  cases hp : s.definitionFor? q.instanceId with
  | none =>
    rw [hp] at hdefinition
    rw [commands_of_unknown (.taskFinished e q) hp,
      commands_of_unknown (.taskFinished e q) hdefinition]
    exact .inl rfl
  | some p =>
    rw [hp] at hdefinition
    have hfirst := commands_taskFinished hp o e
    rw [decideTaskFinished_of_isCleanup he] at hfirst
    have hagain := commands_taskFinished hdefinition o e
    rw [decideTaskFinished_of_isCleanup he] at hagain
    cases hbefore : (s.current q).isRejected with
    | false =>
      -- nothing was done, so the task is judged as before
      have hnil : s.commands o (.taskFinished e q) = [] := by
        rw [hfirst, decideRejectCleanup, hbefore]
        rfl
      refine .inl (commands_heed fun node batch status comment hmem => ?_)
      rw [hnil] at hmem
      cases hmem
    | true =>
      cases hafter : ((s.heed o (.taskFinished e q)).current q).isRejected with
      | true =>
        rw [hfirst, hagain]
        exact .inl (decideRejectCleanup_congr hnode (hafter.trans hbefore.symm))
      | false =>
        refine .inr ⟨?_, rfl, rfl⟩
        rw [hagain, decideRejectCleanup, hafter]
        rfl

/-! ## What a completion event does again -/

section Completion

variable {policy : JoinPolicy} {p : ProcessDefinition} {outcome : BranchOutcome}

/-- A completion event closes open tasks by a verdict, those of the batch of its task. -/
theorem verdict_of_finishPending_mem (he : e.joinPolicy? = some policy)
    (hp : s.definitionFor? q.instanceId = some p) {node comment : String} {batch : Option String}
    {status : TaskStatus}
    (h : .finishPending node batch status comment ∈ s.commands o (.taskFinished e q)) :
    node = (s.current q).nodeId ∧ batch = some (s.current q).batch ∧
      (∃ outcome, (Snapshot.ofParts p.table (s.tasksOf q.instanceId)).verdict? policy
        (s.current q) = some outcome) ∧
        0 < ((Ledger.ofTasks p.table (s.tasksOf q.instanceId)).tally (s.current q).nodeId
          (s.current q).batch).pending := by
  rw [commands_taskFinished hp, decideTaskFinished_eq he] at h
  cases hverdict : (Snapshot.ofParts p.table (s.tasksOf q.instanceId)).verdict? policy
      (s.current q) with
  | none =>
    rw [hverdict] at h
    cases h
  | some outcome =>
    rw [hverdict] at h
    rcases mem_closeBatch_iff.mp h with ⟨g, -, heq⟩ | ⟨hpending, heq⟩
    · cases heq
    · injection heq with hnode hbatch _ _
      exact ⟨hnode, hbatch, ⟨outcome, rfl⟩, hpending⟩

/-- **A verdict stands after the pending tasks were closed.** -/
theorem verdict?_heed (hs : s.Coherent) (o : DispatchOptions) (e : EventName)
    (hpending : 0 < ((Ledger.ofTasks p.table (s.tasksOf q.instanceId)).tally (s.current q).nodeId
      (s.current q).batch).pending)
    (hverdict : (Snapshot.ofParts p.table (s.tasksOf q.instanceId)).verdict? policy (s.current q) =
      some outcome) :
    (Snapshot.ofParts p.table ((s.heed o (.taskFinished e q)).tasksOf q.instanceId)).verdict? policy
      ((s.heed o (.taskFinished e q)).current q) = some outcome := by
  have hsettles := settles_heed o s (.taskFinished e q)
  obtain ⟨-, -, hnode, hbatch⟩ := (hsettles.settles_current q).origin
  have hbeside : ∀ u, Snapshot.Beside ((s.heed o (.taskFinished e q)).current q) u ↔
      Snapshot.Beside (s.current q) u := by
    intro u
    unfold Snapshot.Beside
    rw [hnode, hbatch]
  have hanswers : (Snapshot.ofParts p.table (s.tasksOf q.instanceId)).Answers policy (s.current q) →
      (Snapshot.ofParts p.table ((s.heed o (.taskFinished e q)).tasksOf q.instanceId)).Answers policy
        ((s.heed o (.taskFinished e q)).current q) := by
    rintro ⟨hjoins, hreopened⟩
    refine ⟨by rw [hnode]; exact hjoins, ?_⟩
    rintro ⟨u, hu, hat, hother, hstatus⟩
    exact hreopened ⟨u, mem_tasksOf_heed hu (.inl hstatus), hat.trans hnode, hbatch ▸ hother,
      hstatus⟩
  cases outcome with
  | rejected =>
    obtain ⟨hanswer, u, hu, hin, hstatus⟩ := Snapshot.verdict?_eq_rejected_iff.mp hverdict
    obtain ⟨hmem, hinst⟩ := List.mem_filter.mp hu
    -- a rejected task is finished, so it is still there
    have hfinished : u.finished = true := (hs u hmem).mpr (by rw [hstatus]; exact nofun)
    exact Snapshot.verdict?_eq_rejected_iff.mpr ⟨hanswers hanswer, u,
      List.mem_filter.mpr ⟨hsettles.finished hmem hfinished, hinst⟩, (hbeside u).mpr hin, hstatus⟩
  | passed =>
    obtain ⟨hanswer, hnone, hpassed, hagreed⟩ := Snapshot.verdict?_eq_passed_iff.mp hverdict
    have hsame : (s.heed o (.taskFinished e q)).current q = s.current q :=
      (hsettles.settles_current q).eq_of_finished (Bool.and_eq_true_iff.mp hpassed).1
    refine Snapshot.verdict?_eq_passed_iff.mpr ⟨hanswers hanswer, ?_, ?_, ?_⟩
    · intro u hu hin hstatus
      exact hnone u (mem_tasksOf_heed hu (.inr hstatus)) ((hbeside u).mp hin) hstatus
    · rw [hsame]
      exact hpassed
    · intro hall
      rw [hsame] at hall
      -- where everybody must agree, no task was pending
      obtain ⟨u, hu, hat, hin, hstatus⟩ := Ledger.pending_pos_iff.mp hpending
      exact absurd hstatus (Snapshot.not_pending_of_isAgreed (hagreed hall) hu ⟨hat, hin⟩)

/-- Closing a batch closes the branch at the gateways, whether or not tasks are pending. -/
theorem filterMap_closure?_closeBatch (inst : String) (t : Task) (gateways : List String)
    (outcome : BranchOutcome) (comment : String) (pending : Nat) :
    (closeBatch t gateways outcome comment pending).filterMap (·.closure? inst) =
      gateways.map fun g => ⟨inst, g, t.nodeId, outcome, comment⟩ := by
  rw [filterMap_closeBatch _ fun _ _ _ _ => rfl, ← List.filterMap_eq_map]
  rfl

end Completion

/-! ## The second time -/

/-- A task event leads to the same commands again, unless it is a completion event that closed open
tasks, or a cleanup that closed the rejected task itself. -/
theorem commands_heed_cases (o : DispatchOptions) (s : Store) (e : EventName) (q : Task) :
    (s.heed o (.taskFinished e q)).commands o (.taskFinished e q) =
        s.commands o (.taskFinished e q) ∨
      (∃ policy p, e.joinPolicy? = some policy ∧ s.definitionFor? q.instanceId = some p ∧
        ∃ node batch status comment,
          .finishPending node batch status comment ∈ s.commands o (.taskFinished e q)) ∨
      (s.heed o (.taskFinished e q)).commands o (.taskFinished e q) = [] ∧
        (s.current q).isRejected = true ∧
        ((s.heed o (.taskFinished e q)).current q).isRejected = false := by
  by_cases hnone : ∀ node batch status comment,
      .finishPending node batch status comment ∉ s.commands o (.taskFinished e q)
  · exact .inl (commands_heed hnone)
  simp only [not_forall, not_not] at hnone
  obtain ⟨node, batch, status, comment, hmem⟩ := hnone
  cases hp : s.definitionFor? q.instanceId with
  | none =>
    rw [commands_of_unknown (.taskFinished e q) hp] at hmem
    cases hmem
  | some p =>
    cases hpolicy : e.joinPolicy? with
    | some policy => exact .inr (.inl ⟨policy, p, rfl, rfl, node, batch, status, comment, hmem⟩)
    | none =>
      cases he : e.isCleanup with
      | true => exact (commands_heed_cleanup o s he q).imp_right .inr
      | false =>
        rw [commands_taskFinished hp, decideTaskFinished_of_handedOn hpolicy he] at hmem
        cases List.mem_singleton.mp hmem

/-- **The second time no open tasks are closed elsewhere.** -/
theorem finishPending_mem_again {node comment : String} {batch : Option String}
    {status : TaskStatus}
    (h : .finishPending node batch status comment ∈
      (s.heed o (.taskFinished e q)).commands o (.taskFinished e q)) :
    ∃ status comment, .finishPending node batch status comment ∈
      s.commands o (.taskFinished e q) := by
  rcases commands_heed_cases o s e q with
    heq | ⟨policy, p, he, hp, node', batch', status', comment', hfirst⟩ | ⟨hnil, -⟩
  · rw [heq] at h
    exact ⟨status, comment, h⟩
  · obtain ⟨-, -, hnode, hbatch⟩ :=
      ((settles_heed o s (.taskFinished e q)).settles_current q).origin
    have hp' := (definitionFor?_heed o s (.taskFinished e q) q.instanceId).trans hp
    obtain ⟨rfl, rfl, -⟩ := verdict_of_finishPending_mem he hp' h
    obtain ⟨rfl, rfl, -⟩ := verdict_of_finishPending_mem he hp hfirst
    rw [hnode, hbatch]
    exact ⟨status', comment', hfirst⟩
  · rw [hnil] at h
    cases h

/-- **The second time the same branches are closed**, if flag and status agree. -/
theorem closures_again (hs : s.Coherent) (o : DispatchOptions) (e : EventName) (q : Task) :
    ((s.heed o (.taskFinished e q)).commands o (.taskFinished e q)).filterMap
        (·.closure? q.instanceId) =
      (s.commands o (.taskFinished e q)).filterMap (·.closure? q.instanceId) := by
  rcases commands_heed_cases o s e q with
    heq | ⟨policy, p, he, hp, node, batch, status, comment, hfirst⟩ | ⟨-, hbefore, hafter⟩
  · rw [heq]
  · obtain ⟨-, -, ⟨outcome, hverdict⟩, hpending⟩ := verdict_of_finishPending_mem he hp hfirst
    have hp' := (definitionFor?_heed o s (.taskFinished e q) q.instanceId).trans hp
    have hnode := ((settles_heed o s (.taskFinished e q)).settles_current q).origin.2.2.1
    rw [commands_taskFinished hp', decideTaskFinished_eq he,
      verdict?_heed hs o e hpending hverdict, commands_taskFinished hp, decideTaskFinished_eq he,
      hverdict]
    dsimp only
    rw [filterMap_closure?_closeBatch, filterMap_closure?_closeBatch, hnode]
    rfl
  · -- the rejected task was finished, so it cannot have been closed
    have hstatus : (s.current q).status = .rejected := beq_iff_eq.mp hbefore
    have hsame := (settles_heed o s (.taskFinished e q)).current_eq hs
      (hstatus ▸ nofun : (s.current q).status ≠ .pending)
    rw [hsame, hbefore] at hafter
    cases hafter

end Store

namespace Dispatcher

/-- **An event that is delivered again changes no task, and where flag and status agree it closes the
same branches again**, in the same order, after those that were closed before. -/
theorem handle_twice (hooks : HookEvent → Except FlowError Unit) (autoPass : AutoPassOptions)
    (dispatch : DispatchOptions) (d : Dispatcher Store) (e : EventName) (q : Task) :
    let w := Store.wiring hooks autoPass dispatch
    let once := d.move w (.handle (.taskFinished e q))
    let twice := once.move w (.handle (.taskFinished e q))
    twice.engine.tasks = once.engine.tasks ∧
      (d.engine.Coherent → ∃ closures, once.engine.closed = d.engine.closed ++ closures ∧
        twice.engine.closed = once.engine.closed ++ closures) := by
  intro w once twice
  have honce : once.engine = d.engine.heed dispatch (.taskFinished e q) := engine_heed _ d
  have htwice : twice.engine = once.engine.heed dispatch (.taskFinished e q) := engine_heed _ once
  rw [htwice, honce]
  refine ⟨Store.tasks_heed_heed fun _ _ _ _ h => Store.finishPending_mem_again h, fun hd => ?_⟩
  refine ⟨(d.engine.commands dispatch (.taskFinished e q)).filterMap (·.closure? q.instanceId),
    Store.closed_heed .., ?_⟩
  rw [Store.closed_heed]
  exact congrArg _ (Store.closures_again hd dispatch e q)

/-- One of two approvers agrees, and the branch is closed together with the task of the other. The
same event again finds nobody's answer missing and closes the branch once more. -/
theorem handle_twice_agreement :
    let w := Store.wiring (fun _ => .ok ()) {} {}
    let event := EngineEvent.taskFinished .taskParallelPass (bothTasks "task-1" "ann")
    let d := initial.play w (agreement.take 5)
    let once := d.move w (.handle event)
    let twice := once.move w (.handle event)
    d.engine.Coherent ∧ once.engine.tasks ≠ d.engine.tasks ∧
      twice.engine.tasks = once.engine.tasks ∧
      once.engine.closed =
        [⟨"inst-1", "Q", "U", .passed, "closed by system: branch approved"⟩] ∧
      twice.engine.closed = once.engine.closed ++ once.engine.closed := by
  intro w event d once twice
  have hd : d.engine.Coherent := by decide
  obtain ⟨htasks, hclosures⟩ := handle_twice (fun _ => .ok ()) {} {} d .taskParallelPass
    (bothTasks "task-1" "ann")
  obtain ⟨closures, honce, htwice⟩ := hclosures hd
  have hbefore : d.engine.closed = [] := by decide
  rw [hbefore, List.nil_append] at honce
  refine ⟨hd, by decide, htasks, by decide, ?_⟩
  rw [← honce] at htwice
  exact htwice

end Dispatcher

end ApprovalFlow
