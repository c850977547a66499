import ApprovalFlow.Proofs.AutoPass.Acts
import ApprovalFlow.Proofs.Dispatch.Order

/-!
# Runs keep to their own tasks

An event that is delivered twice, or a process that comes back to a node, starts several runs for
one node, and all of them look for an open task there. No lock keeps them apart. What keeps them
apart is that a visit asks for the tasks and passes one in a single act: the task is open before and
finished after it, a finished task never changes again, and no run passes one.

- `look_eq_completed`, `Store.task?_passTask`: a look that completes a task found it open.
- `Dispatcher.run_act_of_over`: a run that is over stays as it is.
- `Dispatcher.completed_act`, `Dispatcher.exists_visit`: **a run completes a task by a visit of its
  own, from before which to after which the task went from open to passed.**
- `Dispatcher.Exclusive`: no run takes a task from another or changes one that is finished.
- `Dispatcher.runs_exclusive`: **however acts interleave, runs are exclusive.**
- `Dispatcher.eq_of_completed_play`: so they are in every history.
-/

namespace ApprovalFlow

/-- The task as a run leaves it. -/
def Task.autoPassed (options : AutoPassOptions) (t : Task) : Task :=
  { t with status := .passed, finished := true, comment := options.comment }

theorem Task.pass_eq_autoPassed {options : AutoPassOptions} {t : Task} (h : t.finished = false) :
    t.pass options.comment = t.autoPassed options := by
  unfold pass
  rw [h]
  rfl

/-! ## One visit -/

/-- A look that completes a task found it open at the node, and passed it. -/
theorem look_eq_completed {comment inst node id : String} {s : Store}
    (h : (look Store.engine comment inst node s).1 = .completed id) :
    ∃ t ∈ s.tasks, t.finished = false ∧ t.instanceId = inst ∧ t.nodeId = node ∧ t.id = id ∧
      s.passTask t.id comment = .ok (look Store.engine comment inst node s).2 := by
  rcases look_cases comment inst node s with ⟨-, hnot⟩ |
    ⟨t, ht, hopen, hinst, hnode, hcompleted, hpass⟩
  · exact absurd h (hnot id)
  · exact ⟨t, ht, hopen, hinst, hnode, RunStatus.completed.inj (hcompleted.symm.trans h), hpass⟩

/-- If ids differ, the id of an open task finds it, and finds it passed after it was passed. -/
theorem Store.task?_passTask {s s' : Store} (hids : (s.tasks.map (·.id)).Nodup) {t : Task}
    (ht : t ∈ s.tasks) (hopen : t.finished = false) {options : AutoPassOptions}
    (h : s.passTask t.id options.comment = .ok s') :
    s.task? t.id = some t ∧ s'.task? t.id = some (t.autoPassed options) := by
  have hfind : s.task? t.id = some t := (Task.find?_id_iff hids).mpr ⟨ht, rfl⟩
  refine ⟨hfind, ?_⟩
  unfold passTask at h
  split at h
  · rename_i u tasks halter
    cases h
    obtain ⟨-, t', -, -, -, rfl, hfind'⟩ := Task.alterFirst_eq_some halter
    obtain rfl : t = t' := Option.some.inj (hfind.symm.trans hfind')
    rw [Task.pass_eq_autoPassed hopen] at halter
    exact Task.find?_of_alterFirst halter rfl
  · cases h

namespace Run

variable {options : AutoPassOptions} {now : Nat} {s : Store} {r : Run} {id : String}

theorem visit_of_over {σ : Type} {e : Engine σ} {s : σ} (h : r.status.isTerminal = true) :
    r.visit e options now s = (r, s) := if_pos h

theorem origin_visit (options : AutoPassOptions) (now : Nat) (s : Store) (r : Run) :
    (r.visit Store.engine options now s).1.instanceId = r.instanceId ∧
      (r.visit Store.engine options now s).1.nodeId = r.nodeId := by
  unfold visit
  split <;> exact ⟨rfl, rfl⟩

/-- A run completes a task by a look. -/
theorem visit_eq_completed (hopen : r.status.isTerminal = false)
    (h : (r.visit Store.engine options now s).1.status = .completed id) :
    (look Store.engine options.comment r.instanceId r.nodeId s).1 = .completed id ∧
      (r.visit Store.engine options now s).2 =
        (look Store.engine options.comment r.instanceId r.nodeId s).2 := by
  rcases Nat.lt_or_ge now r.nextLook with hearly | hdue
  · rw [visit_early hopen hearly] at h
    dsimp only at h
    split at h <;> cases h
  · rw [visit_due hopen hdue] at h ⊢
    dsimp only at h ⊢
    refine ⟨?_, rfl⟩
    split at h
    · cases h
    · exact h

end Run

namespace Dispatcher

variable {hooks : HookEvent → Except FlowError Unit} {autoPass : AutoPassOptions}
  {dispatch : DispatchOptions} {d : Dispatcher Store} {acts : List Act} {a : Act} {i n : Nat}
  {r : Run} {id : String}

/-! ## One act -/

/-- The visit of a run that is over does nothing. -/
theorem visit_of_over {w : Wiring Store} (hr : d.runs[i]? = some r)
    (hover : r.status.isTerminal = true) : d.visit w i = d := by
  have hset : d.runs.set i r = d.runs := by
    obtain ⟨hi, rfl⟩ := List.getElem?_eq_some_iff.mp hr
    exact List.set_getElem_self hi
  rw [visit_eq w hr, Run.visit_of_over hover, hset]

theorem runs_visit_of_ne {place : Nat} (h : place ≠ i) (w : Wiring Store) (d : Dispatcher Store) :
    (d.visit w place).runs[i]? = d.runs[i]? := by
  unfold visit
  split
  · exact List.getElem?_set_ne h
  · rfl

theorem runs_cancel (place i : Nat) (d : Dispatcher Store) :
    (d.cancel place).runs[i]? = (d.runs[i]?).map fun r =>
      if place = i ∧ r.status.isTerminal = false then { r with status := .cancelled } else r := by
  unfold cancel
  dsimp only
  rw [List.getElem?_modify, Option.map_eq_map]
  congr 1
  funext r
  by_cases hi : place = i <;> cases h : r.status.isTerminal <;> simp [hi]

/-- A run that is over stays as it is. -/
theorem run_act_of_over (hr : d.runs[i]? = some r) (hover : r.status.isTerminal = true)
    (a : Act) : (d.act (Store.wiring hooks autoPass dispatch) a).runs[i]? = some r := by
  rcases runs_act d a with ⟨started, h, -⟩ | ⟨place, rfl⟩ | ⟨place, rfl⟩
  · obtain ⟨hi, -⟩ := List.getElem?_eq_some_iff.mp hr
    rw [h, List.getElem?_append_left hi]
    exact hr
  · by_cases hi : place = i
    · subst hi
      show (d.visit _ place).runs[place]? = some r
      rw [visit_of_over hr hover]
      exact hr
    · exact (runs_visit_of_ne hi _ d).trans hr
  · show (d.cancel place).runs[i]? = some r
    rw [runs_cancel, hr, Option.map_some, hover, if_neg (fun h => nomatch h.2)]

/-- **A run completes a task by a visit of its own.** -/
theorem completed_act (hr : (d.act (Store.wiring hooks autoPass dispatch) a).runs[i]? = some r)
    (hcompleted : r.status = .completed id) :
    d.runs[i]? = some r ∨ a = .visit i ∧ ∃ r₀, d.runs[i]? = some r₀ ∧
      r₀.status.isTerminal = false ∧ r = (r₀.visit Store.engine autoPass d.now d.engine).1 := by
  rcases runs_act d a with ⟨started, h, hstarted⟩ | ⟨place, rfl⟩ | ⟨place, rfl⟩
  · rw [h] at hr
    rcases Nat.lt_or_ge i d.runs.length with hi | hi
    · rw [List.getElem?_append_left hi] at hr
      exact .inl hr
    · rw [List.getElem?_append_right hi] at hr
      rw [hstarted r (List.mem_of_getElem? hr)] at hcompleted
      cases hcompleted
  · by_cases hi : place = i
    · subst hi
      change (d.visit _ place).runs[place]? = some r at hr
      cases hr₀ : d.runs[place]? with
      | none =>
        unfold visit at hr
        rw [hr₀] at hr
        exact .inl (hr₀.symm.trans hr)
      | some r₀ =>
        cases hover : r₀.status.isTerminal with
        | true =>
          rw [visit_of_over hr₀ hover] at hr
          exact .inl (hr₀.symm.trans hr)
        | false =>
          refine .inr ⟨rfl, r₀, rfl, hover, ?_⟩
          rw [run_visit _ hr₀] at hr
          exact (Option.some.inj hr).symm
    · exact .inl ((runs_visit_of_ne hi _ d).symm.trans hr)
  · change (d.cancel place).runs[i]? = some r at hr
    rw [runs_cancel, Option.map_eq_some_iff] at hr
    obtain ⟨r₀, hr₀, rfl⟩ := hr
    split at hcompleted
    · cases hcompleted
    · rename_i h
      rw [if_neg h]
      exact .inl hr₀

/-- The task that a visit completes was open at the run's own node, and is passed. -/
theorem task?_visit (hids : (d.engine.tasks.map (·.id)).Nodup) (hr : d.runs[i]? = some r)
    (hopen : r.status.isTerminal = false)
    (h : (r.visit Store.engine autoPass d.now d.engine).1.status = .completed id) :
    ∃ t, d.engine.task? id = some t ∧ t.finished = false ∧ t.instanceId = r.instanceId ∧
      t.nodeId = r.nodeId ∧
      (d.visit (Store.wiring hooks autoPass dispatch) i).engine.task? id =
        some (t.autoPassed autoPass) := by
  obtain ⟨hlook, hengine⟩ := Run.visit_eq_completed hopen h
  obtain ⟨t, ht, hfin, hinst, hnode, rfl, hpass⟩ := look_eq_completed hlook
  obtain ⟨hbefore, hafter⟩ := Store.task?_passTask hids ht hfin hpass
  refine ⟨t, hbefore, hfin, hinst, hnode, ?_⟩
  rw [visit_eq _ hr]
  show (r.visit Store.engine autoPass d.now d.engine).2.task? t.id = _
  rw [hengine]
  exact hafter

/-! ## All acts -/

/-- Runs neither share tasks nor disturb any that is finished. -/
structure Exclusive (w : Wiring Store) (d : Dispatcher Store) (acts : List Act) : Prop where
  /-- No two runs complete the same task. -/
  alone : ∀ (i j : Nat) (r r' : Run) (id : String), (d.perform w acts).runs[i]? = some r →
    (d.perform w acts).runs[j]? = some r' → r.status = .completed id → r'.status = .completed id →
      i = j
  /-- A run that completed a task found it open at its own node and passed it, and the task has not
  changed since. -/
  own : ∀ (i : Nat) (r : Run) (id : String), (d.perform w acts).runs[i]? = some r →
    r.status = .completed id → ∃ n t, acts[n]? = some (.visit i) ∧
      (d.upTo w acts n).engine.task? id = some t ∧ t.finished = false ∧
        t.instanceId = r.instanceId ∧ t.nodeId = r.nodeId ∧
          ∀ k, n < k → (d.upTo w acts k).engine.task? id = some (t.autoPassed w.autoPass)
  /-- No visit changes a task that was finished. -/
  kept : ∀ n i : Nat, acts[n]? = some (.visit i) →
    (d.upTo w acts n).engine.Settles (d.upTo w acts (n + 1)).engine
  /-- A run that is over, say because it was cancelled or its time was up, stays as it is, and its
  visits change nothing at all. -/
  ended : ∀ (n i : Nat) (r : Run), (d.upTo w acts n).runs[i]? = some r →
    r.status.isTerminal = true → ∀ k, n ≤ k → (d.upTo w acts k).runs[i]? = some r ∧
      (acts[k]? = some (.visit i) → d.upTo w acts (k + 1) = d.upTo w acts k)

section

variable (hfair : Fairly (Store.wiring hooks autoPass dispatch) d acts)

include hfair

/-- If ids differ in the end, they differed at any time before. -/
theorem nodup_ids_upTo
    (hids : ((d.perform (Store.wiring hooks autoPass dispatch) acts).engine.tasks.map (·.id)).Nodup)
    (hn : n ≤ acts.length) :
    ((d.upTo (Store.wiring hooks autoPass dispatch) acts n).engine.tasks.map (·.id)).Nodup := by
  have hprefix := kept_upTo (P := fun d' : Dispatcher Store =>
      (d.upTo (Store.wiring hooks autoPass dispatch) acts n).engine.tasks.map Task.id <+:
        d'.engine.tasks.map Task.id)
    hfair (fun _ _ ha h => h.trans (ids_act ha)) hn List.prefix_rfl
  rw [upTo_length] at hprefix
  exact hids.sublist hprefix.sublist

/-- A task that is finished is found unchanged from then on. -/
theorem task?_upTo {t : Task} {k : Nat} (hnk : n ≤ k)
    (h : (d.upTo (Store.wiring hooks autoPass dispatch) acts n).engine.task? id = some t)
    (hfin : t.finished = true) :
    (d.upTo (Store.wiring hooks autoPass dispatch) acts k).engine.task? id = some t :=
  kept_upTo (P := fun d' => d'.engine.task? id = some t) hfair
    (fun _ _ ha h => task?_act ha h hfin) hnk h

theorem run_upTo_of_over {k : Nat} (hnk : n ≤ k)
    (hr : (d.upTo (Store.wiring hooks autoPass dispatch) acts n).runs[i]? = some r)
    (hover : r.status.isTerminal = true) :
    (d.upTo (Store.wiring hooks autoPass dispatch) acts k).runs[i]? = some r :=
  kept_upTo (P := fun d' => d'.runs[i]? = some r) hfair
    (fun _ a _ h => run_act_of_over h hover a) hnk hr

/-- **Behind every completed run is a visit of it**, from which on the task is passed. -/
theorem exists_visit (hruns : d.runs = [])
    (hids : ((d.perform (Store.wiring hooks autoPass dispatch) acts).engine.tasks.map (·.id)).Nodup)
    (hr : (d.perform (Store.wiring hooks autoPass dispatch) acts).runs[i]? = some r)
    (hcompleted : r.status = .completed id) :
    ∃ n t, acts[n]? = some (.visit i) ∧
      (d.upTo (Store.wiring hooks autoPass dispatch) acts n).engine.task? id = some t ∧
        t.finished = false ∧ t.instanceId = r.instanceId ∧ t.nodeId = r.nodeId ∧
          ∀ k, n < k → (d.upTo (Store.wiring hooks autoPass dispatch) acts k).engine.task? id =
            some (t.autoPassed autoPass) := by
  rw [← upTo_length] at hr
  generalize acts.length = m at hr
  induction m with
  | zero =>
    change d.runs[i]? = some r at hr
    rw [hruns] at hr
    cases hr
  | succ m ih =>
    cases ha : acts[m]? with
    | none =>
      rw [upTo_succ_of_none ha] at hr
      exact ih hr
    | some a =>
      rw [upTo_succ ha] at hr
      rcases completed_act hr hcompleted with hr | ⟨rfl, r₀, hr₀, hopen, rfl⟩
      · exact ih hr
      · obtain ⟨hm, -⟩ := List.getElem?_eq_some_iff.mp ha
        obtain ⟨t, hbefore, hfin, hinst, hnode, hafter⟩ :=
          task?_visit (nodup_ids_upTo hfair hids hm.le) hr₀ hopen hcompleted
        obtain ⟨hinst', hnode'⟩ := Run.origin_visit autoPass
          (d.upTo (Store.wiring hooks autoPass dispatch) acts m).now
          (d.upTo (Store.wiring hooks autoPass dispatch) acts m).engine r₀
        refine ⟨m, t, ha, hbefore, hfin, hinst.trans hinst'.symm, hnode.trans hnode'.symm, ?_⟩
        intro k hk
        refine task?_upTo hfair hk ?_ rfl
        rw [upTo_succ ha]
        exact hafter

/-- No two runs complete the same task: the later of their visits would have found it finished. -/
theorem eq_of_completed (hruns : d.runs = [])
    (hids : ((d.perform (Store.wiring hooks autoPass dispatch) acts).engine.tasks.map (·.id)).Nodup)
    {j : Nat} {r' : Run}
    (hr : (d.perform (Store.wiring hooks autoPass dispatch) acts).runs[i]? = some r)
    (hr' : (d.perform (Store.wiring hooks autoPass dispatch) acts).runs[j]? = some r')
    (hcompleted : r.status = .completed id) (hcompleted' : r'.status = .completed id) : i = j := by
  obtain ⟨n, t, hn, hopen, hfin, -, -, hlater⟩ := exists_visit hfair hruns hids hr hcompleted
  obtain ⟨n', t', hn', hopen', hfin', -, -, hlater'⟩ :=
    exists_visit hfair hruns hids hr' hcompleted'
  rcases Nat.lt_trichotomy n n' with hlt | rfl | hlt
  · obtain rfl := Option.some.inj (hopen'.symm.trans (hlater n' hlt))
    cases hfin'
  · cases hn.symm.trans hn'
    rfl
  · obtain rfl := Option.some.inj (hopen.symm.trans (hlater' n hlt))
    cases hfin

/-- **Runs keep to their own tasks**, in whatever order calls, commands, visits and cancellations
come, if the ids of tasks differ. -/
theorem runs_exclusive (hruns : d.runs = [])
    (hids : ((d.perform (Store.wiring hooks autoPass dispatch) acts).engine.tasks.map
      (·.id)).Nodup) :
    Exclusive (Store.wiring hooks autoPass dispatch) d acts where
  alone := fun i j r r' id hr hr' => eq_of_completed hfair hruns hids hr hr'
  own := fun i r id hr hcompleted => exists_visit hfair hruns hids hr hcompleted
  kept := by
    intro n i hn
    rw [upTo_succ hn]
    exact settles_visit i _
  ended := by
    intro n i r hr hover k hnk
    have hrun := run_upTo_of_over hfair hnk hr hover
    refine ⟨hrun, fun hk => ?_⟩
    rw [upTo_succ hk]
    exact visit_of_over (w := Store.wiring hooks autoPass dispatch) hrun hover

end

/-- Two runs wait at one node and each is left a task of its own; a third is cancelled. -/
theorem runs_exclusive_three :
    let w := Store.wiring (fun _ => .ok ()) ⟨⟨1000⟩, ⟨10⟩, "auto"⟩ {}
    let acts := [.spawn "i" "n", .command "i" (.spawnAutoPass "n"), .spawn "i" "n", .visit 0,
      .call (.createTask "i" "n" "b" "sys_auto" false), .visit 1, .wait 10, .visit 0, .cancel 2,
      .call (.createTask "i" "n" "c" "sys_auto" false), .wait 10, .visit 2, .visit 0]
    (initial.perform w acts).runs.map (·.status) =
        [.completed "task-2", .completed "task-1", .cancelled] ∧
      Exclusive w initial acts := by
  intro w acts
  exact ⟨by decide, runs_exclusive (by decide) rfl (by decide)⟩

/-! ## Histories -/

/-- In no history do two runs complete the same task. -/
theorem eq_of_completed_play {moves : List Move} (hruns : d.runs = [])
    (hmoves : Along (Store.wiring hooks autoPass dispatch) d Move.Fair moves)
    (hids : ((d.play (Store.wiring hooks autoPass dispatch) moves).engine.tasks.map (·.id)).Nodup)
    {j : Nat} {r' : Run}
    (hr : (d.play (Store.wiring hooks autoPass dispatch) moves).runs[i]? = some r)
    (hr' : (d.play (Store.wiring hooks autoPass dispatch) moves).runs[j]? = some r')
    (hcompleted : r.status = .completed id) (hcompleted' : r'.status = .completed id) : i = j := by
  obtain ⟨acts, hfair, hacts⟩ := leads_play hmoves
  rw [← hacts] at hids hr hr'
  exact eq_of_completed hfair hruns hids hr hr' hcompleted hcompleted'

end Dispatcher

end ApprovalFlow
