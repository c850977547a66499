import ApprovalFlow.Proofs.AutoPass.Exclusive

/-!
# While only runs act

Whoever waits for an answer, say for that of a hook, gives the runs time to act. What they can do
meanwhile is little: a run that is not over passes an open task that has the id of one it found open
at its own node. The rest of the engine stays as it is, and no run is started.

- `Act.OfRun`: a run acts, or time passes. `LeadsBy` says of two states that nothing else happened in
  between.
- `Dispatcher.Awaits`: a run is out for the task with an id.
- `Task.Waited`, `Run.Waited`, `Dispatcher.Waited`: a task, a run and the whole state before and
  after.
- `Dispatcher.waited_act`, `Dispatcher.Waited.trans`: one act, and one after another.
- `Dispatcher.waited_of_leadsBy`: **what can have happened while only runs acted.**
-/

namespace ApprovalFlow

/-- Is it a run that acts, or only time that passes? -/
def Act.OfRun : Act → Prop
  | .visit _ | .wait _ => True
  | .call _ | .command .. | .spawn .. | .cancel _ => False

/-- Is a run that is not over for a node where an open task has the id? -/
def Dispatcher.Awaits (d : Dispatcher Store) (id : String) : Prop :=
  ∃ r ∈ d.runs, r.status.isTerminal = false ∧ ∃ t ∈ d.engine.tasks, t.finished = false ∧
    t.instanceId = r.instanceId ∧ t.nodeId = r.nodeId ∧ t.id = id

/-- A task in the state `d` and later: it is as it was, or it was open and a run passed it. -/
inductive Task.Waited (options : AutoPassOptions) (d : Dispatcher Store) (t : Task) :
    Task → Prop where
  | same : Waited options d t t
  | passed (hopen : t.finished = false) (hawaits : d.Awaits t.id) :
      Waited options d t (t.autoPassed options)

/-- A run before and after: it is for the same node, and over it is as it was. -/
structure Run.Waited (r r' : Run) : Prop where
  instanceId : r'.instanceId = r.instanceId
  nodeId : r'.nodeId = r.nodeId
  ended : r.status.isTerminal = true → r' = r

theorem Task.Waited.settles {options : AutoPassOptions} {d : Dispatcher Store} {t u : Task}
    (h : Task.Waited options d t u) : Task.Settles t u := by
  cases h with
  | same => exact .same
  | passed hopen _ => exact .closed .passed options.comment hopen

namespace Dispatcher

/-- The state before and after only runs acted. -/
structure Waited (options : AutoPassOptions) (d d' : Dispatcher Store) : Prop where
  /-- In the engine at most tasks have changed. -/
  engine : d'.engine = { d.engine with tasks := d'.engine.tasks }
  tasks : List.Forall₂ (Task.Waited options d) d.engine.tasks d'.engine.tasks
  /-- No run was started. -/
  runs : List.Forall₂ Run.Waited d.runs d'.runs
  delivered : d'.delivered = d.delivered

variable {options : AutoPassOptions} {d d' d'' : Dispatcher Store}

namespace Waited

theorem refl (options : AutoPassOptions) (d : Dispatcher Store) : Waited options d d where
  engine := rfl
  tasks := List.forall₂_same.mpr fun _ _ => .same
  runs := List.forall₂_same.mpr fun _ _ => ⟨rfl, rfl, fun _ => rfl⟩
  delivered := rfl

/-- A run that is out for a task was so before: neither a run nor an open task is new. -/
theorem awaits (h : Waited options d d') {id : String} (hid : d'.Awaits id) : d.Awaits id := by
  obtain ⟨r', hr', hopen, t, ht, hfin, hinst, hnode, rfl⟩ := hid
  have hsettles : d.engine.Settles d'.engine := h.tasks.imp fun _ _ ht => ht.settles
  obtain ⟨r, hr, hwaited⟩ := exists_of_mem_right h.runs hr'
  refine ⟨r, hr, ?_, t, hsettles.unfinished ht hfin, hfin, hinst.trans hwaited.instanceId,
    hnode.trans hwaited.nodeId, rfl⟩
  rw [Bool.eq_false_iff]
  intro hover
  rw [hwaited.ended hover, hover] at hopen
  cases hopen

theorem trans (h : Waited options d d') (h' : Waited options d' d'') : Waited options d d'' where
  engine := by rw [h'.engine, h.engine]
  tasks := by
    refine forall₂_trans (fun t u v htu huv => ?_) h.tasks h'.tasks
    cases huv with
    | same => exact htu
    | passed hopen hawaits =>
      -- a task that was still open in between is the one from the beginning
      obtain rfl := htu.settles.eq_of_unfinished hopen
      exact .passed hopen (h.awaits hawaits)
  runs := by
    refine forall₂_trans (fun r r' r'' hr hr' => ⟨?_, ?_, fun hover => ?_⟩) h.runs h'.runs
    · exact hr'.instanceId.trans hr.instanceId
    · exact hr'.nodeId.trans hr.nodeId
    · have heq := hr.ended hover
      rw [hr'.ended (heq ▸ hover), heq]
  delivered := h'.delivered.trans h.delivered

end Waited

/-! ## One act -/

/-- To pass a task that a run is out for is to change open tasks with its id at most. -/
theorem tasks_passTask {s s' : Store} {id : String} (hawaits : d.Awaits id)
    (h : s.passTask id options.comment = .ok s') :
    s' = { s with tasks := s'.tasks } ∧ List.Forall₂ (Task.Waited options d) s.tasks s'.tasks := by
  unfold Store.passTask at h
  split at h
  · rename_i halter
    cases h
    refine ⟨rfl, Task.forall₂_alterFirst (fun _ => .same) halter fun t ht => ?_⟩
    cases hfin : t.finished with
    | true =>
      unfold Task.pass
      rw [if_pos hfin]
      exact .same
    | false =>
      obtain rfl : t.id = id := by simpa using List.find?_some ht
      rw [Task.pass_eq_autoPassed hfin]
      exact .passed hfin hawaits
  · cases h

/-- A run that is not over leaves the engine as it is, or it passes a task that it is out for. -/
theorem engine_visit {r : Run} (hr : r ∈ d.runs) (hopen : r.status.isTerminal = false) {s : Store}
    (hs : (r.visit Store.engine options d.now d.engine).2 = s) :
    s = { d.engine with tasks := s.tasks } ∧
      List.Forall₂ (Task.Waited options d) d.engine.tasks s.tasks := by
  have hsame : d.engine = { d.engine with tasks := d.engine.tasks } ∧
      List.Forall₂ (Task.Waited options d) d.engine.tasks d.engine.tasks :=
    ⟨rfl, (Waited.refl options d).tasks⟩
  rcases Nat.lt_or_ge d.now r.nextLook with hearly | hdue
  · rw [Run.visit_early hopen hearly] at hs
    exact hs ▸ hsame
  · rw [Run.visit_due hopen hdue] at hs
    rcases look_cases options.comment r.instanceId r.nodeId d.engine with ⟨hlook, -⟩ |
      ⟨t, ht, hfin, hinst, hnode, -, hpass⟩
    · exact hlook.symm.trans hs ▸ hsame
    · exact tasks_passTask ⟨r, hr, hopen, t, ht, hfin, hinst, hnode, rfl⟩ (hs ▸ hpass)

/-- Only the run at the place has changed. -/
theorem runs_set {runs : List Run} {place : Nat} {r r' : Run} (hr : runs[place]? = some r)
    (hwaited : Run.Waited r r') : List.Forall₂ Run.Waited runs (runs.set place r') := by
  obtain ⟨hlt, rfl⟩ := List.getElem?_eq_some_iff.mp hr
  refine List.forall₂_iff_get.mpr ⟨(List.length_set).symm, fun i hi hi' => ?_⟩
  simp only [List.get_eq_getElem, List.getElem_set]
  by_cases h : place = i
  · subst h
    rw [if_pos rfl]
    exact hwaited
  · rw [if_neg h]
    exact ⟨rfl, rfl, fun _ => rfl⟩

variable {hooks : HookEvent → EStateM FlowError (Dispatcher Store) Unit}
  {dispatch : DispatchOptions}

theorem waited_visit (place : Nat) (d : Dispatcher Store) :
    Waited options d (d.visit (Store.serving hooks options dispatch) place) := by
  cases hr : d.runs[place]? with
  | none =>
    unfold visit
    rw [hr]
    exact .refl options d
  | some r =>
    cases hover : r.status.isTerminal with
    | true =>
      rw [visit_of_over hr hover]
      exact .refl options d
    | false =>
      obtain ⟨hinst, hnode⟩ := Run.origin_visit options d.now d.engine r
      have hrun : Run.Waited r (r.visit Store.engine options d.now d.engine).1 :=
        ⟨hinst, hnode, fun h => absurd h (Bool.eq_false_iff.mp hover)⟩
      obtain ⟨hengine, htasks⟩ := engine_visit (List.mem_of_getElem? hr) hover rfl
      rw [visit_eq _ hr]
      exact ⟨hengine, htasks, runs_set hr hrun, rfl⟩

/-- **What one act of a run does**, and the passing of time. -/
theorem waited_act {a : Act} (ha : a.OfRun) (d : Dispatcher Store) :
    Waited options d (d.act (Store.serving hooks options dispatch) a) := by
  cases a with
  | visit place => exact waited_visit place d
  | wait millis => exact ⟨rfl, (Waited.refl options d).tasks, (Waited.refl options d).runs, rfl⟩
  | call | command | spawn | cancel => cases ha

/-- **What can have happened while only runs acted.** -/
theorem waited_of_leadsBy
    (h : LeadsBy (fun _ a => a.OfRun) (Store.serving hooks options dispatch) d d') :
    Waited options d d' := by
  obtain ⟨acts, hacts, rfl⟩ := h
  induction acts generalizing d with
  | nil => exact .refl options d
  | cons a rest ih => exact (waited_act hacts.1 d).trans (ih hacts.2)

end Dispatcher

end ApprovalFlow
