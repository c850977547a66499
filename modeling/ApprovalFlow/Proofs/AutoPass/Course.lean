import ApprovalFlow.Proofs.AutoPass.Exclusive

/-!
# The course of a run

A run looks at its node when it starts and then once in every interval, the last time when its time
is up. Between two looks anything may happen to the engine. What the run does depends only on how
the engine stands at its looks: the first look that finds an open task at the node ends the run and
passes the task, and all others leave the engine alone. What counts is not the number of visits but
the time, which may not pass beyond an instant at which the run has something to do.

- `Look`, `Dispatcher.looks`: the looks of a run while some acts are made.
- `Look.Misses`, `Look.Passes`: what a look finds, and what it then does.
- `Act.Punctual`: no time passes beyond the next instant of the run, and nobody stops it.
- `Dispatcher.Stands`: how a run stands after its looks.
- `Dispatcher.Underway`, `Dispatcher.underway_act`: where a run is between two looks, and what one
  act does to it.
- `Dispatcher.run_course`: **the looks of a run are one interval apart, and the first that finds an
  open task passes it, or the time of the run is up.**
-/

namespace ApprovalFlow

/-! ## One look -/

/-- A look of a run at its node: its instant, and the engine before and after it. -/
structure Look where
  instant : Nat
  before : Store
  after : Store

namespace Look

/-- There is no open task at the node, and the look changes nothing. -/
def Misses (inst node : String) (l : Look) : Prop :=
  (∀ t ∈ l.before.tasks, Store.isOpenAt inst node none t = false) ∧ l.after = l.before

/-- The task is the first open one at the node, and the look passes it by its id. It changes just
this task unless one that is stored before it has the same id. -/
def Passes (options : AutoPassOptions) (inst node : String) (t : Task) (l : Look) : Prop :=
  ∃ fore rest, l.before.tasks = fore ++ t :: rest ∧ Store.isOpenAt inst node none t = true ∧
    (∀ u ∈ fore, Store.isOpenAt inst node none u = false) ∧
    l.before.passTask t.id options.comment = .ok l.after ∧
    (l.after = { l.before with tasks := fore ++ t.autoPassed options :: rest } ↔
      ∀ u ∈ fore, u.id ≠ t.id)

end Look

namespace Store

variable {s : Store} {t : Task} {fore rest : List Task}

/-- Passing an open task by its id passes just this one if no task before it has the id, and leaves
it open otherwise. -/
theorem exists_passTask (options : AutoPassOptions) (htasks : s.tasks = fore ++ t :: rest)
    (hopen : t.finished = false) :
    ∃ s', s.passTask t.id options.comment = .ok s' ∧
      (s' = { s with tasks := fore ++ t.autoPassed options :: rest } ↔
        ∀ u ∈ fore, u.id ≠ t.id) := by
  have hself : Task.alterFirst t.id (Task.pass options.comment) (t :: rest) =
      some (t.autoPassed options, t.autoPassed options :: rest) := by
    rw [Task.alterFirst, if_pos rfl, Task.pass_eq_autoPassed hopen]
  unfold passTask
  rw [htasks, Task.alterFirst_append, hself, ← Task.alterFirst_eq_none_iff]
  cases hfore : Task.alterFirst t.id (Task.pass options.comment) fore with
  | none => exact ⟨_, rfl, iff_of_true rfl rfl⟩
  | some p =>
    obtain ⟨u, fore'⟩ := p
    refine ⟨_, rfl, iff_of_false (fun h => ?_) (Option.some_ne_none _)⟩
    have hlists : fore' ++ t :: rest = fore ++ t.autoPassed options :: rest :=
      congrArg Store.tasks h
    obtain ⟨pre, v, post, rfl, rfl, -, -⟩ := Task.alterFirst_eq_some hfore
    have hcons := (List.append_inj hlists (by simp)).2
    have hfinished : t.finished = true := congrArg Task.finished (List.cons.inj hcons).1
    rw [hopen] at hfinished
    cases hfinished

end Store

/-- A look finds nothing, or it passes the first open task. -/
theorem look_misses_or_passes (options : AutoPassOptions) (inst node : String) (now : Nat)
    (s : Store) :
    ((look Store.engine options.comment inst node s).1 = .pending ∧
        Look.Misses inst node ⟨now, s, (look Store.engine options.comment inst node s).2⟩) ∨
      ∃ t : Task, (look Store.engine options.comment inst node s).1 = .completed t.id ∧
        Look.Passes options inst node t
          ⟨now, s, (look Store.engine options.comment inst node s).2⟩ := by
  have hfind : ((s.tasksAt inst node).find? fun t => !t.finished) =
      s.tasks.find? (Store.isOpenAt inst node none) := by
    unfold Store.tasksAt
    rw [List.find?_filter]
    refine congrArg (List.find? · s.tasks) (funext fun t => ?_)
    rw [Bool.eq_iff_iff]
    simp [Store.isOpenAt]
  unfold look Store.engine
  dsimp only
  rw [hfind]
  cases hopen : s.tasks.find? (Store.isOpenAt inst node none) with
  | none =>
    refine .inl ⟨rfl, fun t ht => ?_, rfl⟩
    exact Bool.eq_false_of_not_eq_true (List.find?_eq_none.mp hopen t ht)
  | some t =>
    obtain ⟨ht, fore, rest, htasks, hfore⟩ := List.find?_eq_some_iff_append.mp hopen
    obtain ⟨s', hpass, hexact⟩ := Store.exists_passTask options htasks
      (Store.isOpenAt_iff.mp ht).2.2.1
    dsimp only
    rw [hpass]
    refine .inr ⟨t, rfl, fore, rest, htasks, ht, fun u hu => ?_, hpass, hexact⟩
    exact (Bool.not_eq_true' _).mp (hfore u hu)

/-- A visit at which a look is due finds nothing, and then the run waits on or gives up, or it
passes the first open task and ends the run. -/
theorem Run.visit_misses_or_passes (options : AutoPassOptions) {now : Nat} {r : Run} (s : Store)
    (hopen : r.status.isTerminal = false) (hdue : r.nextLook ≤ now) :
    (Look.Misses r.instanceId r.nodeId ⟨now, s, (r.visit Store.engine options now s).2⟩ ∧
        (r.visit Store.engine options now s).1 = { r with
          status := if r.deadline ≤ now then .timedOut else .pending
          nextLook := now + max 1 options.pollInterval.millis }) ∨
      ∃ t : Task, Look.Passes options r.instanceId r.nodeId t
          ⟨now, s, (r.visit Store.engine options now s).2⟩ ∧
        (r.visit Store.engine options now s).1 = { r with
          status := .completed t.id
          nextLook := now + max 1 options.pollInterval.millis } := by
  rw [visit_due hopen hdue]
  rcases look_misses_or_passes options r.instanceId r.nodeId now s with
    ⟨hstatus, hmiss⟩ | ⟨t, hstatus, hpass⟩
  · refine .inl ⟨hmiss, ?_⟩
    simp only [hstatus, true_and]
  · refine .inr ⟨t, hpass, ?_⟩
    rw [hstatus, if_neg fun h => nomatch h.1]

/-! ## Time -/

/-- Does the act leave the run at the place its time? No time passes beyond the next instant at
which the run does something, and the run is not stopped. -/
def Act.Punctual (place : Nat) (d : Dispatcher Store) : Act → Prop
  | .wait millis => ∀ t ∈ (d.runs[place]?).bind Run.nextInstant?, d.now + millis ≤ t
  | .cancel place' => place' ≠ place
  | .call _ | .command .. | .spawn .. | .visit _ => True

instance (place : Nat) (d : Dispatcher Store) : DecidablePred (Act.Punctual place d) := fun a =>
  match a with
  | .wait millis =>
    inferInstanceAs (Decidable (∀ t ∈ (d.runs[place]?).bind Run.nextInstant?, d.now + millis ≤ t))
  | .cancel place' => inferInstanceAs (Decidable (place' ≠ place))
  | .call _ | .command .. | .spawn .. | .visit _ => inferInstanceAs (Decidable True)

namespace Dispatcher

/-- Does the run at the place look at its node if it is visited now? -/
def IsDue (place : Nat) (d : Dispatcher Store) : Prop :=
  ∃ r ∈ d.runs[place]?, r.status = .pending ∧ r.nextLook ≤ d.now

instance (place : Nat) : DecidablePred (IsDue place) := fun d =>
  inferInstanceAs (Decidable (∃ r ∈ d.runs[place]?, r.status = .pending ∧ r.nextLook ≤ d.now))

/-- The look of the run at the place, if the act is one. -/
def look? (w : Wiring Store) (place : Nat) (d : Dispatcher Store) (a : Act) : Option Look :=
  if a = .visit place ∧ d.IsDue place then some ⟨d.now, d.engine, (d.act w a).engine⟩ else none

/-- The looks of the run at the place while some acts are made, oldest first. -/
def looks (w : Wiring Store) (place : Nat) (d : Dispatcher Store) : List Act → List Look
  | [] => []
  | a :: rest => (d.look? w place a).toList ++ looks w place (d.act w a) rest

/-- How a run stands that waits for a task at a node since some instant, after its looks. -/
inductive Stands (options : AutoPassOptions) (inst node : String) (since now : Nat)
    (looks : List Look) : RunStatus → Prop
  /-- Its time is not past, and no look that is due was left out. -/
  | pending (hnow : now ≤ since + options.timeout.millis)
      (hmissed : ∀ l ∈ looks, l.Misses inst node)
      (hall : ∀ k, since + k * options.pollInterval.millis < now → k < looks.length) :
      Stands options inst node since now looks .pending
  /-- The last look passed a task, and no look before it found one. -/
  | completed {fore : List Look} {last : Look} {t : Task} (hlooks : looks = fore ++ [last])
      (hmissed : ∀ l ∈ fore, l.Misses inst node) (hpassed : last.Passes options inst node t) :
      Stands options inst node since now looks (.completed t.id)
  /-- Its time is up, and none of the looks that fall in it found a task. -/
  | timedOut (hnow : since + options.timeout.millis ≤ now)
      (hmissed : ∀ l ∈ looks, l.Misses inst node)
      (hall : looks.length = options.timeout.millis / options.pollInterval.millis + 1) :
      Stands options inst node since now looks .timedOut

variable {hooks : HookEvent → Except FlowError Unit} {autoPass : AutoPassOptions}
  {dispatch : DispatchOptions} {w : Wiring Store} {d : Dispatcher Store} {acts : List Act} {a : Act}
  {place : Nat} {inst node : String}

theorem looks_concat (w : Wiring Store) (place : Nat) (d : Dispatcher Store) (acts : List Act)
    (a : Act) :
    looks w place d (acts ++ [a]) =
      looks w place d acts ++ ((d.perform w acts).look? w place a).toList := by
  induction acts generalizing d with
  | nil => exact List.append_nil _
  | cons a' rest ih =>
    rw [List.cons_append, looks, looks, ih, List.append_assoc]
    rfl

/-- An act that neither visits a run nor stops it leaves it alone. -/
theorem run_act_of_ne {r : Run} (hr : d.runs[place]? = some r) (hvisit : a ≠ .visit place)
    (hcancel : a ≠ .cancel place) :
    (d.act (Store.wiring hooks autoPass dispatch) a).runs[place]? = some r := by
  rcases runs_act d a with ⟨started, h, -⟩ | ⟨place', rfl⟩ | ⟨place', rfl⟩
  · obtain ⟨hi, -⟩ := List.getElem?_eq_some_iff.mp hr
    rw [h, List.getElem?_append_left hi]
    exact hr
  · have hne : place' ≠ place := fun heq => hvisit (congrArg Act.visit heq)
    exact (runs_visit_of_ne hne _ d).trans hr
  · have hne : place' ≠ place := fun heq => hcancel (congrArg Act.cancel heq)
    show (d.cancel place').runs[place]? = some r
    rw [runs_cancel, hr, Option.map_some, if_neg fun h => hne h.1]

/-! ## One act -/

/-- Where a run is after its looks. -/
structure Underway (options : AutoPassOptions) (inst node : String) (since place : Nat)
    (d : Dispatcher Store) (looks : List Look) : Prop where
  /-- The run looks at once and then once in every interval. -/
  instants : looks.map (·.instant) =
    (List.range looks.length).map fun k => since + k * options.pollInterval.millis
  /-- No look is later than when its time is up. -/
  in_time : ∀ l ∈ looks, l.instant ≤ since + options.timeout.millis
  /-- The run waits for its next look, or the last look was the first that found a task, or its time
  is up. -/
  run : ∃ r, d.runs[place]? = some r ∧ r.instanceId = inst ∧ r.nodeId = node ∧
    Stands options inst node since d.now looks r.status ∧
    (r.status = .pending → d.now ≤ r.nextLook ∧
      r.nextLook = since + looks.length * options.pollInterval.millis ∧
      r.deadline = since + options.timeout.millis)

variable {since : Nat} {seen : List Look}

theorem lt_of_instant_lt {since interval now k n : Nat} (hk : since + k * interval < now)
    (hnow : now ≤ since + n * interval) : k < n :=
  Nat.lt_of_mul_lt_mul_right (a := interval) (by omega)

/-- An act of others leaves the run where it is, and passes over no instant of it. -/
theorem Underway.act_of_ne (h : Underway autoPass inst node since place d seen)
    (ha : a.Punctual place d) (hvisit : a ≠ .visit place) :
    Underway autoPass inst node since place (d.act (Store.wiring hooks autoPass dispatch) a)
      seen := by
  obtain ⟨r, hr, hinst, hnode, hstands, hnext⟩ := h.run
  have hcancel : a ≠ .cancel place := by
    rintro rfl
    exact ha rfl
  refine ⟨h.instants, h.in_time, r, run_act_of_ne hr hvisit hcancel, hinst, hnode, ?_⟩
  have hact : (d.act (Store.wiring hooks autoPass dispatch) a).now = d.now ∨ _ := now_act d a
  rcases hact with hnow | ⟨millis, rfl, hnow⟩
  · rw [hnow]
    exact ⟨hstands, hnext⟩
  · have hlate (hpending : r.status = .pending) : d.now + millis ≤ min r.nextLook r.deadline := by
      refine ha _ ?_
      rw [hr, Option.bind_some, Run.nextInstant?, hpending]
      rfl
    rw [hnow]
    generalize r.status = status at hstands hnext hlate
    cases hstands with
    | pending _ hmissed _ =>
      obtain ⟨-, hlook, hdeadline⟩ := hnext rfl
      have hlate := hlate rfl
      refine ⟨.pending (by omega) hmissed fun k hk => ?_, fun _ => ⟨by omega, hlook, hdeadline⟩⟩
      exact lt_of_instant_lt hk (by omega)
    | completed hlooks hmissed hpassed =>
      exact ⟨.completed hlooks hmissed hpassed, fun h => by cases h⟩
    | timedOut hup hmissed hall => exact ⟨.timedOut (by omega) hmissed hall, fun h => by cases h⟩

theorem look?_visit (w : Wiring Store) {r : Run} (hr : d.runs[place]? = some r) :
    d.look? w place (.visit place) =
      if r.status = .pending ∧ r.nextLook ≤ d.now then
        some ⟨d.now, d.engine, (d.visit w place).engine⟩
      else none := by
  have hdue : d.IsDue place ↔ r.status = .pending ∧ r.nextLook ≤ d.now := by
    unfold IsDue
    rw [hr]
    simp
  unfold look?
  simp only [hdue, true_and]
  rfl

/-- Once another look would come too late, all looks that fall in the time of the run are made. -/
theorem Underway.length_eq (h : Underway autoPass inst node since place d seen)
    (hlate : autoPass.timeout.millis < seen.length * autoPass.pollInterval.millis) :
    seen.length = autoPass.timeout.millis / autoPass.pollInterval.millis + 1 := by
  have hinstants := h.instants
  cases hn : seen.length with
  | zero =>
    rw [hn] at hlate
    omega
  | succ n =>
    rw [hn] at hlate hinstants
    have hlast : since + n * autoPass.pollInterval.millis ∈ seen.map (·.instant) := by
      rw [hinstants]
      exact List.mem_map.mpr ⟨n, List.mem_range.mpr n.lt_succ_self, rfl⟩
    obtain ⟨l, hl, heq⟩ := List.mem_map.mp hlast
    have hin := h.in_time l hl
    rw [Nat.div_eq_of_lt_le (by omega) hlate]

/-- What is known of a run that is not over. -/
theorem Underway.of_open (h : Underway autoPass inst node since place d seen) {r : Run}
    (hr : d.runs[place]? = some r) (hopen : r.status.isTerminal = false) :
    (r.instanceId = inst ∧ r.nodeId = node) ∧
      (r.nextLook = since + seen.length * autoPass.pollInterval.millis ∧
        r.deadline = since + autoPass.timeout.millis) ∧
      (d.now ≤ r.nextLook ∧ d.now ≤ r.deadline) ∧ ∀ l ∈ seen, l.Misses inst node := by
  obtain ⟨r', hr', hinst, hnode, hstands, hnext⟩ := h.run
  obtain rfl := Option.some.inj (hr.symm.trans hr')
  have hpending := RunStatus.eq_pending hopen
  obtain ⟨hnow, hlook, hdeadline⟩ := hnext hpending
  rw [hpending] at hstands
  cases hstands with
  | pending hstill hmissed _ =>
    exact ⟨⟨hinst, hnode⟩, ⟨hlook, hdeadline⟩, ⟨hnow, hdeadline ▸ hstill⟩, hmissed⟩

/-- A visit before a look is due does no more than to end the run when its time is up. -/
theorem Underway.visit_early (h : Underway autoPass inst node since place d seen) {r : Run}
    (hr : d.runs[place]? = some r) (hopen : r.status.isTerminal = false)
    (hearly : d.now < r.nextLook) :
    Underway autoPass inst node since place
      (d.visit (Store.wiring hooks autoPass dispatch) place) seen := by
  obtain ⟨⟨hinst, hnode⟩, ⟨hlook, hdeadline⟩, ⟨hnow, hstill⟩, hmissed⟩ := h.of_open hr hopen
  have hrun := run_visit (Store.wiring hooks autoPass dispatch) hr
  rw [Run.visit_early hopen hearly] at hrun
  refine ⟨h.instants, h.in_time, _, hrun, hinst, hnode, ?_⟩
  rw [visit_eq _ hr]
  dsimp only
  by_cases hup : r.deadline ≤ d.now
  · rw [if_pos hup]
    exact ⟨.timedOut (by omega) hmissed (h.length_eq (by omega)), fun h => by cases h⟩
  · rw [if_neg hup]
    refine ⟨.pending (by omega) hmissed fun k hk => ?_, fun _ => ⟨hnow, hlook, hdeadline⟩⟩
    exact lt_of_instant_lt hk (by omega)

/-- A visit at the instant of a look finds a task and passes it, or the run waits on, up to the end
of its time. -/
theorem Underway.visit_due (h : Underway autoPass inst node since place d seen) {r : Run}
    (hr : d.runs[place]? = some r) (hopen : r.status.isTerminal = false) (hdue : r.nextLook ≤ d.now)
    (hinterval : 0 < autoPass.pollInterval.millis) :
    Underway autoPass inst node since place
      (d.visit (Store.wiring hooks autoPass dispatch) place)
      (seen ++ [⟨d.now, d.engine,
        (d.visit (Store.wiring hooks autoPass dispatch) place).engine⟩]) := by
  obtain ⟨⟨rfl, rfl⟩, ⟨hlook, hdeadline⟩, ⟨hnow, hstill⟩, hmissed⟩ := h.of_open hr hopen
  have hat : d.now = since + seen.length * autoPass.pollInterval.millis := by omega
  have hrun : (d.visit (Store.wiring hooks autoPass dispatch) place).runs[place]? =
      some (r.visit Store.engine autoPass d.now d.engine).1 := run_visit _ hr
  have hinstants : (seen.map (·.instant) ++ [d.now]) = (List.range (seen.length + 1)).map fun k =>
      since + k * autoPass.pollInterval.millis := by
    rw [h.instants, List.range_succ, List.map_append, List.map_singleton, hat]
  have hin_time : d.now ≤ since + autoPass.timeout.millis := hdeadline ▸ hstill
  rw [visit_eq _ hr] at hrun ⊢
  refine ⟨?_, List.forall_mem_append.mpr ⟨h.in_time, List.forall_mem_singleton.mpr hin_time⟩, _,
    hrun, ?_⟩
  · rw [List.map_append, List.map_singleton, hinstants, List.length_append, List.length_singleton]
  · show _ ∧ _ ∧ Stands _ _ _ _ d.now
      (seen ++ [⟨d.now, d.engine, (r.visit Store.engine autoPass d.now d.engine).2⟩]) _ ∧ _
    rcases Run.visit_misses_or_passes autoPass d.engine hopen hdue with
      ⟨hmiss, hvisit⟩ | ⟨t, hpass, hvisit⟩
    · have hmissed := List.forall_mem_append.mpr ⟨hmissed, List.forall_mem_singleton.mpr hmiss⟩
      rw [hvisit, List.length_append, List.length_singleton]
      dsimp only
      refine ⟨rfl, rfl, ?_⟩
      by_cases hup : r.deadline ≤ d.now
      · have hlast : autoPass.timeout.millis =
            seen.length * autoPass.pollInterval.millis := by omega
        rw [if_pos hup]
        refine ⟨.timedOut (by omega) hmissed ?_, fun h => by cases h⟩
        rw [List.length_append, List.length_singleton, hlast, Nat.mul_div_cancel _ hinterval]
      · rw [if_neg hup]
        refine ⟨.pending hin_time hmissed fun k hk => ?_, fun _ => ⟨by omega, ?_, hdeadline⟩⟩
        · rw [List.length_append]
          exact Nat.lt_add_right _ (lt_of_instant_lt hk (by omega))
        · rw [Nat.add_mul, Nat.one_mul, Nat.max_eq_right hinterval, hat, Nat.add_assoc]
    · rw [hvisit]
      exact ⟨rfl, rfl, .completed rfl hmissed hpass, fun h => by cases h⟩

/-- A visit of the run. -/
theorem Underway.visit (h : Underway autoPass inst node since place d seen)
    (hinterval : 0 < autoPass.pollInterval.millis) :
    Underway autoPass inst node since place
      (d.act (Store.wiring hooks autoPass dispatch) (.visit place))
      (seen ++ (d.look? (Store.wiring hooks autoPass dispatch) place (.visit place)).toList) := by
  obtain ⟨r, hr, -⟩ := h.run
  rw [look?_visit _ hr]
  show Underway autoPass inst node since place
    (d.visit (Store.wiring hooks autoPass dispatch) place) _
  cases hover : r.status.isTerminal with
  | true =>
    have hnot : ¬ (r.status = .pending ∧ r.nextLook ≤ d.now) := by
      rintro ⟨hpending, -⟩
      rw [hpending] at hover
      cases hover
    rw [if_neg hnot, visit_of_over hr hover, Option.toList_none, List.append_nil]
    exact h
  | false =>
    rcases Nat.lt_or_ge d.now r.nextLook with hearly | hdue
    · rw [if_neg fun hnot => Nat.not_le_of_lt hearly hnot.2, Option.toList_none, List.append_nil]
      exact h.visit_early hr hover hearly
    · rw [if_pos ⟨RunStatus.eq_pending hover, hdue⟩, Option.toList_some]
      exact h.visit_due hr hover hdue hinterval

/-- **What one act does to a run**: nothing passes over an instant of it, and its looks are due one
interval apart. -/
theorem underway_act (h : Underway autoPass inst node since place d seen)
    (hinterval : 0 < autoPass.pollInterval.millis) (ha : a.Punctual place d) :
    Underway autoPass inst node since place (d.act (Store.wiring hooks autoPass dispatch) a)
      (seen ++ (d.look? (Store.wiring hooks autoPass dispatch) place a).toList) := by
  by_cases hvisit : a = .visit place
  · rw [hvisit]
    exact h.visit hinterval
  · have hnone : d.look? (Store.wiring hooks autoPass dispatch) place a = none :=
      if_neg fun hlook => hvisit hlook.1
    rw [hnone, Option.toList_none, List.append_nil]
    exact h.act_of_ne ha hvisit

/-- A run begins with no look behind it, and the first due at once. -/
theorem underway_spawn (d : Dispatcher Store) (inst node : String) :
    Underway autoPass inst node d.now d.runs.length
      (d.act (Store.wiring hooks autoPass dispatch) (.spawn inst node)) [] where
  instants := rfl
  in_time := List.forall_mem_nil _
  run := by
    refine ⟨Run.start autoPass inst node d.now, List.getElem?_concat_length, rfl, rfl, ?_⟩
    refine ⟨.pending (Nat.le_add_right ..) (List.forall_mem_nil _) fun k hk => ?_, fun _ => ?_⟩
    · exact absurd hk (Nat.not_lt.mpr (Nat.le_add_right ..))
    · exact ⟨Nat.le_refl _, by rw [List.length_nil, Nat.zero_mul]; rfl, rfl⟩

/-! ## All acts -/

theorem underway_perform (h : Underway autoPass inst node since place d [])
    (hinterval : 0 < autoPass.pollInterval.millis)
    (hacts : Each (Act.Punctual place) (Store.wiring hooks autoPass dispatch) d acts) :
    Underway autoPass inst node since place
      (d.perform (Store.wiring hooks autoPass dispatch) acts)
      (looks (Store.wiring hooks autoPass dispatch) place d acts) := by
  induction acts using List.reverseRecOn with
  | nil => exact h
  | append_singleton acts a ih =>
    obtain ⟨hacts, ha, -⟩ := each_append.mp hacts
    rw [perform_concat, looks_concat]
    exact underway_act (ih hacts) hinterval ha

/-- A visit at which no look is due does not touch the engine. -/
theorem engine_visit_of_not_due (h : ¬ d.IsDue place) :
    (d.visit (Store.wiring hooks autoPass dispatch) place).engine = d.engine := by
  cases hr : d.runs[place]? with
  | none =>
    unfold visit
    rw [hr]
  | some r =>
    cases hover : r.status.isTerminal with
    | true => rw [visit_of_over hr hover]
    | false =>
      have hearly : d.now < r.nextLook := Nat.lt_of_not_le fun hdue =>
        h ⟨r, hr, RunStatus.eq_pending hover, hdue⟩
      rw [visit_eq _ hr, Run.visit_early hover hearly]

/-- The clock of a dispatcher waits for no run beyond its next instant. -/
theorem orderly_punctual (place : Nat) : Orderly (Act.Punctual place) where
  command _ _ _ := trivial
  spawn _ _ _ := trivial
  visit _ _ := trivial
  wait d millis h := by
    intro t ht
    obtain ⟨r, hr, hrt⟩ := Option.bind_eq_some_iff.mp ht
    have hmem : t ∈ d.runs.filterMap Run.nextInstant? :=
      List.mem_filterMap.mpr ⟨r, List.mem_of_getElem? hr, hrt⟩
    cases hnext : d.nextInstant? with
    | none =>
      rw [List.min?_eq_none_iff.mp hnext] at hmem
      cases hmem
    | some t' => exact (h t' hnext).trans ((List.le_min?_iff hnext).mp (Nat.le_refl t') t hmem)

/-- The course of a run that waits since some instant for a task at a node, while some acts are
made. -/
structure Course (w : Wiring Store) (inst node : String) (since place : Nat)
    (d : Dispatcher Store) (acts : List Act) : Prop where
  /-- The looks are one interval apart, and the run stands as the looks leave it. -/
  underway : Underway w.autoPass inst node since place (d.perform w acts) (looks w place d acts)
  /-- The run gives up just at the instant at which its time is up. -/
  expires : ∀ n r r', (d.upTo w acts n).runs[place]? = some r →
    (d.upTo w acts (n + 1)).runs[place]? = some r' → r.status = .pending → r'.status = .timedOut →
      (d.upTo w acts n).now = since + w.autoPass.timeout.millis
  /-- Visits at which no look is due do not touch the engine. -/
  idle : ∀ n, acts[n]? = some (.visit place) → ¬ (d.upTo w acts n).IsDue place →
    (d.upTo w acts (n + 1)).engine = (d.upTo w acts n).engine

/-- A run that gives up does so at the instant at which its time is up: it was still waiting before
the visit, and during the visit no time passed. -/
theorem now_of_timedOut (h : Underway autoPass inst node since place d [])
    (hinterval : 0 < autoPass.pollInterval.millis)
    (hacts : Each (Act.Punctual place) (Store.wiring hooks autoPass dispatch) d acts)
    {n : Nat} {r r' : Run}
    (hr : (d.upTo (Store.wiring hooks autoPass dispatch) acts n).runs[place]? = some r)
    (hr' : (d.upTo (Store.wiring hooks autoPass dispatch) acts (n + 1)).runs[place]? = some r')
    (hpending : r.status = .pending) (htimedOut : r'.status = .timedOut) :
    (d.upTo (Store.wiring hooks autoPass dispatch) acts n).now =
      since + autoPass.timeout.millis := by
  have hne : r ≠ r' := by
    rintro rfl
    rw [hpending] at htimedOut
    cases htimedOut
  have hvisit : acts[n]? = some (.visit place) := by
    cases ha : acts[n]? with
    | none =>
      rw [upTo_succ_of_none ha, hr] at hr'
      exact absurd (Option.some.inj hr') hne
    | some a =>
      by_cases heq : a = .visit place
      · rw [heq]
      · have hcancel : a ≠ .cancel place := by
          rintro rfl
          exact hacts.holds ha rfl
        rw [upTo_succ ha, run_act_of_ne hr heq hcancel] at hr'
        exact absurd (Option.some.inj hr') hne
  have hnow : (d.upTo (Store.wiring hooks autoPass dispatch) acts (n + 1)).now =
      (d.upTo (Store.wiring hooks autoPass dispatch) acts n).now := by
    rw [upTo_succ hvisit]
    show (visit _ place _).now = _
    rw [visit_eq _ hr]
  have hbefore := underway_perform h hinterval (hacts.take n)
  have hafter := underway_perform h hinterval (hacts.take (n + 1))
  obtain ⟨-, ⟨-, hdeadline⟩, ⟨-, hstill⟩, -⟩ := hbefore.of_open hr (by rw [hpending]; rfl)
  obtain ⟨r'', hr'', -, -, hstands, -⟩ := hafter.run
  obtain rfl := Option.some.inj (hr'.symm.trans hr'')
  rw [htimedOut] at hstands
  cases hstands with
  | timedOut hup _ _ =>
    change since + autoPass.timeout.millis ≤ (d.upTo _ acts (n + 1)).now at hup
    change (d.upTo _ acts n).now ≤ r.deadline at hstill
    rw [hnow] at hup
    omega

theorem Underway.course (h : Underway autoPass inst node since place d [])
    (hinterval : 0 < autoPass.pollInterval.millis)
    (hacts : Each (Act.Punctual place) (Store.wiring hooks autoPass dispatch) d acts) :
    Course (Store.wiring hooks autoPass dispatch) inst node since place d acts where
  underway := underway_perform h hinterval hacts
  expires _ _ _ := now_of_timedOut h hinterval hacts
  idle n hn hdue := by
    rw [upTo_succ hn]
    exact engine_visit_of_not_due hdue

/-- **The first open task that a run sees is passed, or nothing is.** Whatever happens in between, a
run looks at its node when it starts and then once in every interval until its time is up. The first
look that finds an open task ends the run and passes this task by its id; if there is none, the run
ends when its time is up. All other looks and visits leave the engine alone. The clock of a
dispatcher gives every run its time. -/
theorem run_course (hinterval : 0 < autoPass.pollInterval.millis) (d : Dispatcher Store)
    (inst node : String) :
    (∀ acts, Each (Act.Punctual d.runs.length) (Store.wiring hooks autoPass dispatch)
        (d.act (Store.wiring hooks autoPass dispatch) (.spawn inst node)) acts →
      Course (Store.wiring hooks autoPass dispatch) inst node d.now d.runs.length
        (d.act (Store.wiring hooks autoPass dispatch) (.spawn inst node)) acts) ∧
    ∀ moves, Move.cancel d.runs.length ∉ moves →
      LeadsBy (Act.Punctual d.runs.length) (Store.wiring hooks autoPass dispatch)
        (d.act (Store.wiring hooks autoPass dispatch) (.spawn inst node))
        ((d.act (Store.wiring hooks autoPass dispatch) (.spawn inst node)).play
          (Store.wiring hooks autoPass dispatch) moves) := by
  constructor
  · exact fun acts hacts => (underway_spawn d inst node).course hinterval hacts
  · intro moves hmoves
    have hmeets : ∀ (d' : Dispatcher Store) (m : Move), m ≠ .cancel d.runs.length →
        Meets (Act.Punctual d.runs.length) d' m := by
      intro d' m hm
      cases m with
      | cancel place => exact fun heq => hm (congrArg Move.cancel heq)
      | call | handle | spawn | sleep | await => trivial
    refine leadsBy_play (R := fun _ m => m ≠ .cancel d.runs.length) (orderly_punctual _) hmeets
      fun pre m post heq hm => hmoves ?_
    rw [heq, ← hm]
    exact List.mem_append_right pre List.mem_cons_self

/-- A task is there when the run looks for the third time; the interval does not divide the time of
the run. -/
theorem run_course_third :
    let w := Store.wiring (fun _ => .ok ()) ⟨⟨1000⟩, ⟨300⟩, "auto"⟩ {}
    let d := initial.act w (.spawn "i" "n")
    let acts := [.visit 0, .wait 300, .visit 0, .call (.createTask "i" "n" "b" "ann" false),
      .call (.completeTask "task-1" .passed "yes"), .wait 200,
      .call (.createTask "i" "n" "c" "sys_auto" false), .wait 100, .visit 0, .wait 700, .visit 0]
    Each (Act.Punctual 0) w d acts ∧ (looks w 0 d acts).map (·.instant) = [0, 300, 600] ∧
      (d.perform w acts).runs.map (·.status) = [.completed "task-2"] ∧
        Course w "i" "n" 0 0 d acts := by
  intro w d acts
  have hacts : Each (Act.Punctual 0) w d acts := by decide
  exact ⟨hacts, by decide, by decide, (run_course (by decide) initial "i" "n").1 acts hacts⟩

/-- A task that somebody stored under an id of the engine's own comes before the task that the
engine then stores under the same id, and so it is passed in its place. -/
theorem passed_in_place_of_another :
    let w := Store.wiring (fun _ => .ok ()) ⟨⟨1000⟩, ⟨300⟩, "auto"⟩ {}
    let d := initial.perform w
      [.call (.insertTask ⟨"task-1", "i", "m", "a", "ann", .pending, false, false, ""⟩),
        .call (.createTask "i" "n" "b" "sys_auto" false), .spawn "i" "n", .visit 0]
    d.runs.map (·.status) = [.completed "task-1"] ∧
      d.engine.tasks.map (fun t => (t.nodeId, t.status)) = [("m", .passed), ("n", .pending)] := by
  decide

end Dispatcher

end ApprovalFlow
