import ApprovalFlow.Proofs.Engine.Coherent
import ApprovalFlow.Proofs.History.Instances

/-!
# The open tasks are the pending ones

A dispatcher counts the tasks of a batch that are pending, and tells the engine to close them if
there are any. The engine closes those that are not finished. It closes just what was counted,
because from the beginning on flag and status agree: no call, no command of a dispatcher and no poll
sets one without the other. Only tasks that are brought in from elsewhere have to agree already.

- `Move.Coherent`, `Dispatcher.Reached`: the states that can be reached, with and without events.
- `Store.Coherent.call`, `Store.Coherent.heed`, `Store.Coherent.look`: what keeps flag and status in
  agreement; `Dispatcher.coherent_of_reached` puts it together.
- `Dispatcher.finishPending_mem_iff`, `Dispatcher.count_of_closes`: who closes a batch closes the
  tasks of it that are open, as many as were counted.
- `Dispatcher.open_tasks_agree`: **the two notions of an open task agree in every state, and in a
  batch that is closed no task stays open.**
-/

namespace ApprovalFlow

/-- Does a task that is brought in agree with itself, and is a task that is closed from outside not
closed as pending? Everything else is allowed. -/
def Move.Coherent : Move → Prop
  | .call (.insertTask t) => t.Coherent
  | .call (.finishPending _ _ _ status _) => status ≠ .pending
  | _ => True

instance : DecidablePred Move.Coherent := fun m =>
  match m with
  | .call (.insertTask t) => inferInstanceAs (Decidable t.Coherent)
  | .call (.finishPending ..) => inferInstanceAs (Decidable (_ ≠ _))
  | .call (.submit _) | .call (.failSubmissions _) | .call (.startInstance _)
  | .call (.createTask ..) | .call (.completeTask ..) | .call (.passTask ..)
  | .call (.closeBranch ..) | .handle _ | .spawn .. | .cancel _ | .sleep _ | .await _ =>
    inferInstanceAs (Decidable True)

namespace Store.Coherent

variable {s : Store} (hs : s.Coherent)

include hs

/-- Every call keeps tasks coherent. -/
theorem call {c : Call} (hc : (Move.call c).Coherent) : (s.call c).Coherent := by
  unfold Store.call
  cases c with
  | submit definition =>
    dsimp only
    unfold submit
    split <;> exact hs
  | failSubmissions reason => exact hs
  | startInstance processId =>
    dsimp only
    unfold startInstance
    split <;> exact hs
  | createTask inst node batch user cosigned => exact hs.createTask inst node batch user cosigned
  | insertTask task => exact hs.insertTask hc
  | completeTask id status comment =>
    dsimp only
    cases h : s.completeTask id status comment with
    | ok r => exact hs.completeTask h
    | error e => exact hs
  | passTask id comment =>
    dsimp only
    cases h : s.passTask id comment with
    | ok s' => exact hs.passTask h
    | error e => exact hs
  | finishPending inst node batch status comment => exact hs.finishPending hc inst node batch comment
  | closeBranch inst gateway predecessor outcome comment => exact hs

/-- So does every event, since the system closes no task as pending. -/
theorem heed (o : DispatchOptions) (event : EngineEvent) : (s.heed o event).Coherent := by
  obtain ⟨f, hf, hobeys⟩ := exists_map_foldl_obey event.instanceId s (s.commands o event)
  intro u hu
  unfold Store.heed at hu
  rw [hf] at hu
  obtain ⟨t, ht, rfl⟩ := List.mem_map.mp hu
  have hu := hobeys t
  generalize f t = u at hu
  cases hu with
  | same => exact hs t ht
  | closed hmem _ =>
    obtain ⟨outcome, rfl⟩ := status_of_finishPending_mem hmem
    exact Task.coherent_close outcome.taskStatus_ne.1 t _

/-- So does every poll. -/
theorem look (comment inst node : String) :
    (ApprovalFlow.look Store.engine comment inst node s).2.Coherent := by
  rcases look_cases comment inst node s with ⟨h, -⟩ | ⟨t, -, -, -, -, -, h⟩
  · rw [h]
    exact hs
  · exact hs.passTask h

end Store.Coherent

/-- Coherent tasks that are open are pending. -/
theorem Store.Coherent.orderly {s : Store} (hs : s.Coherent) : s.Orderly :=
  fun t ht hopen => (hs t ht).unfinished_iff.mp hopen

namespace Dispatcher

variable {hooks : HookEvent → Except FlowError Unit} {autoPass : AutoPassOptions}
  {dispatch : DispatchOptions} {d : Dispatcher Store}

/-- The states that an engine and its dispatcher come to from the beginning. A node is polled by a
run when time passes, or at any other moment. -/
inductive Reached (w : Wiring Store) : Dispatcher Store → Prop where
  | initial : Reached w initial
  | move {d : Dispatcher Store} (h : Reached w d) {m : Move} (hm : m.Coherent) :
    Reached w (d.move w m)
  | poll {d : Dispatcher Store} (h : Reached w d) (comment inst node : String) :
    Reached w (d.step w (.poll comment inst node))

theorem Reached.play {w : Wiring Store} (h : Reached w d) {moves : List Move}
    (hmoves : ∀ m ∈ moves, m.Coherent) : Reached w (d.play w moves) := by
  induction moves generalizing d with
  | nil => exact h
  | cons m rest ih =>
    exact ih (h.move (hmoves m List.mem_cons_self)) fun m' hm' =>
      hmoves m' (List.mem_cons_of_mem m hm')

/-- A coherent move keeps tasks coherent. -/
theorem coherent_move (hd : d.engine.Coherent) {m : Move} (hm : m.Coherent) :
    (d.move (Store.wiring hooks autoPass dispatch) m).engine.Coherent := by
  cases m with
  | call call => exact hd.call hm
  | handle event =>
    rw [engine_heed]
    exact hd.heed dispatch event
  | spawn inst node => exact hd
  | cancel place => exact hd
  | sleep millis => exact kept_sleep (fun comment inst node _ hs => hs.look comment inst node) _ hd
  | await place => exact kept_await (fun comment inst node _ hs => hs.look comment inst node) _ hd

/-- **In every state that is reached, flag and status of every task agree.** -/
theorem coherent_of_reached (h : Reached (Store.wiring hooks autoPass dispatch) d) :
    d.engine.Coherent := by
  induction h with
  | initial => exact fun t ht => nomatch ht
  | move _ hm ih => exact coherent_move ih hm
  | poll _ comment inst node ih => exact ih.look comment inst node

/-! ## Closing a batch -/

variable {event : EngineEvent} {inst node batch : String} {outcome : BranchOutcome}

/-- Who closes a batch closes tasks of it iff some of them are open. -/
theorem finishPending_mem_iff (hd : d.engine.Coherent)
    (h : Closes (Store.wiring hooks autoPass dispatch) d event inst node batch outcome) :
    (∃ status comment, .finishPending node (some batch) status comment ∈
        d.engine.commands dispatch event) ↔
      ∃ t ∈ d.engine.tasks, t.In inst node batch ∧ t.finished = false := by
  obtain ⟨q, policy, p, gateways, comment, -, hnode, hbatch, -, hcommands⟩ := verdict_of_closes h
  have hpending : 0 < ((Ledger.ofTasks p.table (d.engine.tasksOf inst)).tally node batch).pending ↔
      ∃ t ∈ d.engine.tasks, t.In inst node batch ∧ t.finished = false := by
    rw [Ledger.pending_pos_iff]
    constructor
    · rintro ⟨t, ht, hat, hin, hstatus⟩
      obtain ⟨ht, hinst⟩ := List.mem_filter.mp ht
      exact ⟨t, ht, ⟨beq_iff_eq.mp hinst, hat, hin⟩, (hd t ht).unfinished_iff.mpr hstatus⟩
    · rintro ⟨t, ht, hin, hopen⟩
      obtain ⟨hof, -⟩ := (beside_iff hnode hbatch).mpr ⟨ht, hin⟩
      exact ⟨t, hof, hin.2.1, hin.2.2, (hd t ht).unfinished_iff.mp hopen⟩
  rw [← hpending, hcommands]
  simp only [mem_closeBatch_iff]
  constructor
  · rintro ⟨status, comment', ⟨g, -, heq⟩ | ⟨hpending, -⟩⟩
    · cases heq
    · exact hpending
  · intro hpending
    rw [hnode, hbatch]
    exact ⟨_, _, .inr ⟨hpending, rfl⟩⟩

/-- It closes as many as the decision counted. -/
theorem count_of_closes (hd : d.engine.Coherent)
    (h : Closes (Store.wiring hooks autoPass dispatch) d event inst node batch outcome)
    {pre post : List Command} {status : TaskStatus} {comment : String}
    (hsplit : d.engine.commands dispatch event =
      pre ++ .finishPending node (some batch) status comment :: post) (nodes : NodeTable) :
    ((pre.foldl (Store.obey inst) d.engine).finishPending inst node (some batch) status comment).1 =
      ((Ledger.ofTasks nodes (d.engine.tasksOf inst)).tally node batch).pending := by
  obtain ⟨q, policy, p, gateways, comment', -, -, -, -, hcommands⟩ := verdict_of_closes h
  rw [hcommands] at hsplit
  -- what comes before closes branches only
  have htasks : (pre.foldl (Store.obey inst) d.engine).tasks = d.engine.tasks := by
    refine Store.tasks_foldl_obey_of_closed fun node' batch' status' comment'' hmem => ?_
    rw [closeBatch_before hsplit] at hmem
    obtain ⟨g, -, heq⟩ := List.mem_map.mp hmem
    cases heq
  rw [← hd.count_finishPending nodes inst node batch status comment]
  unfold Store.finishPending
  rw [htasks]

/-- **The two notions of an open task agree in every state**: a task is finished iff it is not
pending. So an event that closes a batch tells the engine to close tasks of it iff some are not
finished, the engine closes as many as were counted as pending, and afterwards none is open in either
sense. -/
theorem open_tasks_agree (hd : Reached (Store.wiring hooks autoPass dispatch) d) :
    (∀ t ∈ d.engine.tasks, t.finished = true ↔ t.status ≠ .pending) ∧
      ∀ event inst node batch outcome,
        Closes (Store.wiring hooks autoPass dispatch) d event inst node batch outcome →
        ∃ report d', handle (Store.wiring hooks autoPass dispatch) event d = .ok report d' ∧
          ((∃ status comment, .finishPending node (some batch) status comment ∈ report.commands) ↔
            ∃ t ∈ d.engine.tasks, t.In inst node batch ∧ t.finished = false) ∧
          (∀ pre status comment post,
            report.commands = pre ++ .finishPending node (some batch) status comment :: post →
            ∀ nodes, ((pre.foldl (Store.obey inst) d.engine).finishPending inst node (some batch)
                status comment).1 =
              ((Ledger.ofTasks nodes (d.engine.tasksOf inst)).tally node batch).pending) ∧
          ∀ t ∈ d'.engine.tasks, t.In inst node batch → t.finished = true ∧ t.status ≠ .pending := by
  have hcoherent : d.engine.Coherent := coherent_of_reached hd
  refine ⟨hcoherent, fun event inst node batch outcome hcloses => ?_⟩
  obtain ⟨e, q, -, -, -, -, -, report, d', gateway, comment, hhandle, -⟩ := id hcloses
  obtain ⟨-, hreport⟩ := exists_definition_of_handle hhandle
  have hmove : d.move (Store.wiring hooks autoPass dispatch) (.handle event) = d' := by
    show after _ d = d'
    unfold after
    rw [hhandle]
  refine ⟨report, d', hhandle, ?_, ?_, ?_⟩
  · rw [hreport]
    exact finishPending_mem_iff hcoherent hcloses
  · intro pre status comment post hsplit nodes
    rw [hreport] at hsplit
    exact count_of_closes hcoherent hcloses hsplit nodes
  · intro t ht hin
    rw [← hmove] at ht
    have hafter : (d.move (Store.wiring hooks autoPass dispatch) (.handle event)).engine.Coherent :=
      coherent_move hcoherent trivial
    have hfinished := finished_of_closes hcoherent.orderly hcloses ht hin
    exact ⟨hfinished, (hafter t ht).mp hfinished⟩

/-- The approval of one of two approvers closes the task of the other. -/
theorem open_tasks_agree_agreement :
    let w := Store.wiring (fun _ => .ok ()) {} {}
    let event := EngineEvent.taskFinished .taskParallelPass (bothTasks "task-1" "ann")
    let d := initial.play w (agreement.take 5)
    Reached w d ∧ Closes w d event "inst-1" "U" "b" .passed ∧
      (∃ t ∈ d.engine.tasks, t.In "inst-1" "U" "b" ∧ t.finished = false) ∧
      ∃ report d', handle w event d = .ok report d' ∧
        (∃ status comment, .finishPending "U" (some "b") status comment ∈ report.commands) ∧
        ∀ t ∈ d'.engine.tasks, t.In "inst-1" "U" "b" → t.finished = true ∧ t.status ≠ .pending := by
  intro w event d
  have hd : Reached w d := Reached.initial.play (by decide)
  have hmem : .closeBranch "Q" "U" .passed "closed by system: branch approved" ∈
      d.engine.commands {} event := by decide
  have hcloses : Closes w d event "inst-1" "U" "b" .passed :=
    ⟨_, _, rfl, rfl, rfl, by decide, by decide, _, _, "Q", _, handle_ok hmem rfl, hmem⟩
  have hopen : ∃ t ∈ d.engine.tasks, t.instanceId = "inst-1" ∧ t.nodeId = "U" ∧ t.batch = "b" ∧
      t.finished = false := by decide
  obtain ⟨t, ht, hinst, hnode, hbatch, hopen⟩ := hopen
  have hopen : ∃ t ∈ d.engine.tasks, t.In "inst-1" "U" "b" ∧ t.finished = false :=
    ⟨t, ht, ⟨hinst, hnode, hbatch⟩, hopen⟩
  obtain ⟨-, hall⟩ := open_tasks_agree hd
  obtain ⟨report, d', hhandle, hiff, -, hclosed⟩ := hall event "inst-1" "U" "b" .passed hcloses
  exact ⟨hd, hcloses, hopen, report, d', hhandle, hiff.mpr hopen, hclosed⟩

end Dispatcher

end ApprovalFlow
