import ApprovalFlow.Proofs.History.Instances
import ApprovalFlow.Proofs.History.Moves

/-!
# Acts

A move of a history takes its time: an event leads to several commands, and while time passes many
runs look at their nodes, each in its turn. Other clients of the engine may come in between. What
can happen at once is an act: a call of the engine, one command of a dispatcher, or one visit of a
run to its node, which asks for the tasks there and passes one of them. The command that hands an
event on is an act up to the call of the hook, and what happens until the hook answers are acts of
their own.

- `Act`, `Dispatcher.act`: the acts. They may come in any order, and a run may be visited at any
  instant that is not earlier than those before.
- `Dispatcher.perform`, `Dispatcher.upTo`: the state after some acts, and after the first of them.
- `Dispatcher.Fairly`: approvers decide only on open tasks, and tasks come from the engine.
- `Dispatcher.Each`: something holds of each act at the time when it comes.
- `Dispatcher.settles_act`, `Dispatcher.runs_act`: **what one act does to tasks and to runs.**
- `Dispatcher.kept_upTo`: what every act keeps stays from then on.
- `Dispatcher.leadsBy_play`: **every history is a list of acts that wait for no longer than up to
  the next instant at which a run acts.**
- `Dispatcher.leads_play`: every fair history is a list of fair acts.
-/

namespace ApprovalFlow

/-- What can happen at once. -/
inductive Act where
  | call (call : Store.Call)
  | command (instanceId : String) (command : Command)
  | spawn (instanceId nodeId : String)
  | visit (place : Nat)
  | cancel (place : Nat)
  | wait (millis : Nat)
  deriving DecidableEq

/-- Is a task decided only if it is open, and does every new one come from the engine? -/
def Act.Fair (s : Store) : Act → Prop
  | .call c => (Move.call c).Fair s
  | _ => True

instance (s : Store) : DecidablePred (Act.Fair s) := fun a =>
  match a with
  | .call c => inferInstanceAs (Decidable ((Move.call c).Fair s))
  | .command .. | .spawn .. | .visit _ | .cancel _ | .wait _ => inferInstanceAs (Decidable True)

theorem RunStatus.eq_pending {status : RunStatus} (h : status.isTerminal = false) :
    status = .pending := by
  cases status with
  | pending => rfl
  | completed | timedOut | failed | cancelled => cases h

namespace Run

variable {σ : Type} {e : Engine σ} {options : AutoPassOptions} {now : Nat} {r : Run} {s : σ}

/-- A run looks if a look is due, and gives up if the look did not end it and its time is up. -/
theorem visit_due (hopen : r.status.isTerminal = false) (hdue : r.nextLook ≤ now) :
    r.visit e options now s =
      ({ r with
        status :=
          if (look e options.comment r.instanceId r.nodeId s).1 = .pending ∧ r.deadline ≤ now then
            .timedOut
          else (look e options.comment r.instanceId r.nodeId s).1
        nextLook := now + max 1 options.pollInterval.millis },
      (look e options.comment r.instanceId r.nodeId s).2) := by
  rw [visit, hopen]
  simp only [Bool.false_eq_true, if_false, if_pos hdue]

/-- Before a look is due a run does nothing but give up when its time is up. -/
theorem visit_early (hopen : r.status.isTerminal = false) (hearly : now < r.nextLook) :
    r.visit e options now s =
      ({ r with status := if r.deadline ≤ now then .timedOut else .pending }, s) := by
  rw [visit, hopen]
  simp only [Bool.false_eq_true, if_false, if_neg (Nat.not_le_of_lt hearly), true_and]

end Run

namespace Dispatcher

/-- What the run at the place does at the present instant. -/
def visit (w : Wiring Store) (place : Nat) (d : Dispatcher Store) : Dispatcher Store :=
  match d.runs[place]? with
  | some r =>
    let (r, s) := r.visit w.engine w.autoPass d.now d.engine
    { d with engine := s, runs := d.runs.set place r }
  | none => d

/-- The state after an act. One that fails is made all the same. -/
def act (w : Wiring Store) (d : Dispatcher Store) : Act → Dispatcher Store
  | .call c => d.move w (.call c)
  | .command inst c => after (execute w inst c) d
  | .spawn inst node => (d.spawn w inst node).2
  | .visit place => d.visit w place
  | .cancel place => d.cancel place
  | .wait millis => { d with now := d.now + millis }

/-- The state after some acts. -/
def perform (w : Wiring Store) (d : Dispatcher Store) (acts : List Act) : Dispatcher Store :=
  acts.foldl (act w) d

/-- The state after the first acts of a list. -/
def upTo (w : Wiring Store) (d : Dispatcher Store) (acts : List Act) (n : Nat) : Dispatcher Store :=
  d.perform w (acts.take n)

/-- Every act is fair at the time when it comes. -/
def Fairly (w : Wiring Store) (d : Dispatcher Store) : List Act → Prop
  | [] => True
  | a :: rest => a.Fair d.engine ∧ Fairly w (d.act w a) rest

instance Fairly.decidable (w : Wiring Store) :
    ∀ (d : Dispatcher Store) (acts : List Act), Decidable (Fairly w d acts)
  | _, [] => isTrue trivial
  | d, a :: rest =>
    have := decidable w (d.act w a) rest
    inferInstanceAs (Decidable (a.Fair d.engine ∧ Fairly w (d.act w a) rest))

/-- Something holds of each act at the time when it comes. -/
def Each (P : Dispatcher Store → Act → Prop) (w : Wiring Store) (d : Dispatcher Store) :
    List Act → Prop
  | [] => True
  | a :: rest => P d a ∧ Each P w (d.act w a) rest

instance Each.decidable (P : Dispatcher Store → Act → Prop) [∀ d, DecidablePred (P d)]
    (w : Wiring Store) : ∀ (d : Dispatcher Store) (acts : List Act), Decidable (Each P w d acts)
  | _, [] => isTrue trivial
  | d, a :: rest =>
    have := decidable P w (d.act w a) rest
    inferInstanceAs (Decidable (P d a ∧ Each P w (d.act w a) rest))

variable {w : Wiring Store} {d : Dispatcher Store} {acts acts' : List Act} {a : Act} {n k : Nat}
  {P : Dispatcher Store → Act → Prop}

theorem perform_append (w : Wiring Store) (d : Dispatcher Store) (acts acts' : List Act) :
    d.perform w (acts ++ acts') = (d.perform w acts).perform w acts' :=
  List.foldl_append

theorem perform_concat (w : Wiring Store) (d : Dispatcher Store) (acts : List Act) (a : Act) :
    d.perform w (acts ++ [a]) = (d.perform w acts).act w a :=
  perform_append w d acts [a]

theorem each_append :
    Each P w d (acts ++ acts') ↔ Each P w d acts ∧ Each P w (d.perform w acts) acts' := by
  induction acts generalizing d with
  | nil => exact (iff_of_eq (true_and _)).symm
  | cons a rest ih => exact (and_congr_right fun _ => ih).trans and_assoc.symm

theorem fairly_iff : Fairly w d acts ↔ Each (fun d a => a.Fair d.engine) w d acts := by
  induction acts generalizing d with
  | nil => exact Iff.rfl
  | cons a rest ih => exact and_congr_right fun _ => ih

theorem upTo_succ (h : acts[n]? = some a) :
    d.upTo w acts (n + 1) = (d.upTo w acts n).act w a := by
  unfold upTo
  rw [List.take_add_one, h, perform_append]
  rfl

theorem upTo_succ_of_none (h : acts[n]? = none) : d.upTo w acts (n + 1) = d.upTo w acts n := by
  unfold upTo
  rw [List.take_add_one, h, Option.toList_none, List.append_nil]

theorem upTo_length : d.upTo w acts acts.length = d.perform w acts := by
  unfold upTo
  rw [List.take_length]

theorem Each.take (h : Each P w d acts) (n : Nat) : Each P w d (acts.take n) := by
  rw [← List.take_append_drop n acts] at h
  exact (each_append.mp h).1

/-- What holds of each act holds of it right after those before it. -/
theorem Each.holds (h : Each P w d acts) (ha : acts[n]? = some a) : P (d.upTo w acts n) a := by
  induction acts generalizing d n with
  | nil => cases ha
  | cons a' rest ih =>
    cases n with
    | zero =>
      cases ha
      exact h.1
    | succ n => exact ih h.2 ha

/-- Each act is fair right after those before it. -/
theorem Fairly.fair (h : Fairly w d acts) (ha : acts[n]? = some a) :
    a.Fair (d.upTo w acts n).engine :=
  (fairly_iff.mp h).holds ha

/-- **What every fair act keeps stays from then on.** -/
theorem kept_upTo {P : Dispatcher Store → Prop} (hfair : Fairly w d acts)
    (hact : ∀ d a, a.Fair d.engine → P d → P (d.act w a)) (hnk : n ≤ k)
    (h : P (d.upTo w acts n)) : P (d.upTo w acts k) := by
  induction k, hnk using Nat.le_induction with
  | base => exact h
  | succ k _ ih =>
    cases ha : acts[k]? with
    | some a =>
      rw [upTo_succ ha]
      exact hact _ a (hfair.fair ha) ih
    | none =>
      rw [upTo_succ_of_none ha]
      exact ih

/-! ## One act -/

variable {hooks : HookEvent → Except FlowError Unit} {autoPass : AutoPassOptions}
  {dispatch : DispatchOptions}

theorem settles_visit (place : Nat) (d : Dispatcher Store) :
    d.engine.Settles (d.visit (Store.wiring hooks autoPass dispatch) place).engine := by
  unfold visit
  split
  · exact Run.kept_visit (fun _ _ _ _ h => h.trans (settles_look ..)) autoPass d.now _ (.refl _)
  · exact .refl _

/-- **A fair act settles tasks, or it creates one.** -/
theorem settles_act (ha : a.Fair d.engine) :
    d.engine.Settles (d.act (Store.wiring hooks autoPass dispatch) a).engine ∨
      ∃ t, (d.act (Store.wiring hooks autoPass dispatch) a).engine.tasks =
        d.engine.tasks ++ [t] := by
  cases a with
  | call call =>
    have hmove : d.engine.Settles
        (d.move (Store.wiring hooks autoPass dispatch) (.call call)).engine ∨ _ := settles_move ha
    rcases hmove with h | ⟨inst, node, batch, user, cosigned, heq⟩
    · exact .inl h
    · cases heq
      exact .inr ⟨_, rfl⟩
  | command inst c =>
    refine .inl ?_
    show d.engine.Settles (after (execute _ inst c) d).engine
    cases hc : c.touches with
    | true =>
      unfold after
      rw [execute_ok hc]
      exact Store.settles_foldl_obey inst [c] d.engine
    | false =>
      rw [engine_after_execute hc]
      exact .refl _
  | spawn inst node => exact .inl (.refl _)
  | visit place => exact .inl (settles_visit place d)
  | cancel place => exact .inl (.refl _)
  | wait millis => exact .inl (.refl _)

/-- Tasks stay in their places with their ids. -/
theorem ids_act (ha : a.Fair d.engine) :
    d.engine.tasks.map (·.id) <+:
      (d.act (Store.wiring hooks autoPass dispatch) a).engine.tasks.map (·.id) := by
  rcases settles_act ha with h | ⟨t, h⟩
  · exact h.ids_eq ▸ List.prefix_rfl
  · rw [h, List.map_append]
    exact List.prefix_append ..

/-- The task that an id finds is found unchanged once it is finished. -/
theorem task?_act (ha : a.Fair d.engine) {id : String} {t : Task} (h : d.engine.task? id = some t)
    (hfin : t.finished = true) :
    (d.act (Store.wiring hooks autoPass dispatch) a).engine.task? id = some t := by
  unfold Store.task? at h ⊢
  rcases settles_act ha with hsettles | ⟨u, hnew⟩
  · obtain ⟨u, hu, hut⟩ := Task.exists_find?_of_forall₂ (fun _ _ htu => htu.origin.1) hsettles h
    rwa [hut.eq_of_finished hfin] at hu
  · rw [hnew, List.find?_append, h]
    rfl

/-- A command starts a run, or it leaves the runs alone. -/
theorem runs_command (inst : String) (c : Command) :
    (after (execute (Store.wiring hooks autoPass dispatch) inst c) d).runs = d.runs ∨
      ∃ node, (after (execute (Store.wiring hooks autoPass dispatch) inst c) d).runs =
        d.runs ++ [Run.start autoPass inst node d.now] := by
  cases c with
  | closeBranch gateway predecessor outcome comment => exact .inl rfl
  | finishPending node batch status comment => exact .inl rfl
  | spawnAutoPass node => exact .inr ⟨node, rfl⟩
  | forward event =>
    rw [after_forward]
    exact .inl rfl

/-- What a visit does is what the run at the place does. -/
theorem visit_eq {place : Nat} {r : Run} (w : Wiring Store) (hr : d.runs[place]? = some r) :
    d.visit w place = { d with
      engine := (r.visit w.engine w.autoPass d.now d.engine).2
      runs := d.runs.set place (r.visit w.engine w.autoPass d.now d.engine).1 } := by
  unfold visit
  rw [hr]

theorem run_visit {place : Nat} {r : Run} (w : Wiring Store) (hr : d.runs[place]? = some r) :
    (d.visit w place).runs[place]? = some (r.visit w.engine w.autoPass d.now d.engine).1 := by
  obtain ⟨hi, -⟩ := List.getElem?_eq_some_iff.mp hr
  rw [visit_eq w hr]
  exact List.getElem?_set_self hi

/-- Time passes by waiting alone. -/
theorem now_act (d : Dispatcher Store) (a : Act) :
    (d.act (Store.wiring hooks autoPass dispatch) a).now = d.now ∨
      ∃ millis, a = .wait millis ∧
        (d.act (Store.wiring hooks autoPass dispatch) a).now = d.now + millis := by
  cases a with
  | call | spawn | cancel => exact .inl rfl
  | command inst c => exact .inl (now_command inst c)
  | visit place =>
    refine .inl ?_
    show (d.visit _ place).now = d.now
    unfold visit
    split <;> rfl
  | wait millis => exact .inr ⟨millis, rfl, rfl⟩

/-- **An act starts runs, or it is a visit or the end of one.** -/
theorem runs_act (d : Dispatcher Store) (a : Act) :
    (∃ started, (d.act (Store.wiring hooks autoPass dispatch) a).runs = d.runs ++ started ∧
        ∀ r ∈ started, r.status = .pending) ∨
      (∃ place, a = .visit place) ∨ ∃ place, a = .cancel place := by
  cases a with
  | call call => exact .inl ⟨[], (List.append_nil d.runs).symm, List.forall_mem_nil _⟩
  | command inst c =>
    rcases runs_command inst c with h | ⟨node, h⟩
    · exact .inl ⟨[], h.trans (List.append_nil d.runs).symm, List.forall_mem_nil _⟩
    · refine .inl ⟨_, h, fun r hr => ?_⟩
      rw [List.mem_singleton.mp hr]
      rfl
  | spawn inst node =>
    refine .inl ⟨[Run.start autoPass inst node d.now], rfl, fun r hr => ?_⟩
    rw [List.mem_singleton.mp hr]
    rfl
  | visit place => exact .inr (.inl ⟨place, rfl⟩)
  | cancel place => exact .inr (.inr ⟨place, rfl⟩)
  | wait millis => exact .inl ⟨[], (List.append_nil d.runs).symm, List.forall_mem_nil _⟩

/-! ## Histories

A move is many acts: an event is some of its commands, all if none fails, and the passing of time is
visits of all runs, in their order, and waiting in between.
-/

/-- Some acts of which something holds lead from the one state to the other. -/
def LeadsBy (P : Dispatcher Store → Act → Prop) (w : Wiring Store) (d d' : Dispatcher Store) :
    Prop :=
  ∃ acts, Each P w d acts ∧ d.perform w acts = d'

/-- Some fair acts lead from the one state to the other. -/
def Leads (w : Wiring Store) (d d' : Dispatcher Store) : Prop :=
  ∃ acts, Fairly w d acts ∧ d.perform w acts = d'

/-- A condition on acts that commands, new runs and visits always meet, and also waiting up to the
next instant at which a run acts. -/
structure Orderly (P : Dispatcher Store → Act → Prop) : Prop where
  command : ∀ d inst c, P d (.command inst c)
  spawn : ∀ d inst node, P d (.spawn inst node)
  visit : ∀ d place, P d (.visit place)
  wait : ∀ d millis, (∀ t ∈ d.nextInstant?, d.now + millis ≤ t) → P d (.wait millis)

/-- Does a call or a cancellation meet the condition? -/
def Meets (P : Dispatcher Store → Act → Prop) (d : Dispatcher Store) : Move → Prop
  | .call c => P d (.call c)
  | .cancel place => P d (.cancel place)
  | .handle _ | .spawn .. | .sleep _ | .await _ => True

namespace LeadsBy

variable {d' d'' : Dispatcher Store}

theorem refl (P : Dispatcher Store → Act → Prop) (w : Wiring Store) (d : Dispatcher Store) :
    LeadsBy P w d d :=
  ⟨[], trivial, rfl⟩

theorem trans (h : LeadsBy P w d d') (h' : LeadsBy P w d' d'') : LeadsBy P w d d'' := by
  obtain ⟨acts, hacts, rfl⟩ := h
  obtain ⟨acts', hacts', rfl⟩ := h'
  exact ⟨acts ++ acts', each_append.mpr ⟨hacts, hacts'⟩, perform_append w d acts acts'⟩

theorem act (ha : P d a) : LeadsBy P w d (d.act w a) := ⟨[a], ⟨ha, trivial⟩, rfl⟩

end LeadsBy

theorem visit_at (w : Wiring Store) (d : Dispatcher Store) (s : Store) (fore : List Run) (r : Run)
    (rest : List Run) :
    visit w fore.length { d with engine := s, runs := fore ++ r :: rest } =
      { d with
        engine := (r.visit w.engine w.autoPass d.now s).2
        runs := fore ++ (r.visit w.engine w.autoPass d.now s).1 :: rest } := by
  have hget : (fore ++ r :: rest)[fore.length]? = some r := by simp
  have hset (r' : Run) : (fore ++ r :: rest).set fore.length r' = fore ++ r' :: rest := by simp
  rw [visit_eq w hget, hset]

/-- After a visit a run has nothing more to do at the instant. -/
theorem lt_nextInstant_visit (w : Wiring Store) (now : Nat) (r : Run) (s : Store) :
    ∀ t ∈ (r.visit w.engine w.autoPass now s).1.nextInstant?, now < t := by
  have hlt {r' : Run} (hnext : now < r'.nextLook)
      (hdeadline : r'.status = .pending → now < r'.deadline) : ∀ t ∈ r'.nextInstant?, now < t := by
    intro t ht
    unfold Run.nextInstant? at ht
    split at ht
    · cases ht
    · rename_i hopen
      cases ht
      have hpending := RunStatus.eq_pending (Bool.eq_false_of_not_eq_true hopen)
      exact Nat.lt_min.mpr ⟨hnext, hdeadline hpending⟩
  cases hover : r.status.isTerminal with
  | true =>
    rw [Run.visit, if_pos hover]
    intro t ht
    rw [Run.nextInstant?, if_pos hover] at ht
    cases ht
  | false =>
    rcases Nat.lt_or_ge now r.nextLook with hearly | hdue
    · rw [Run.visit_early hover hearly]
      refine hlt hearly fun hpending => Nat.lt_of_not_le fun hup => ?_
      dsimp only at hpending
      rw [if_pos hup] at hpending
      cases hpending
    · rw [Run.visit_due hover hdue]
      refine hlt (by dsimp only; omega) fun hpending => Nat.lt_of_not_le fun hup => ?_
      dsimp only at hpending hup
      split at hpending
      · cases hpending
      · rename_i h
        exact h ⟨hpending, hup⟩

theorem lt_nextInstant_visitAll (w : Wiring Store) (now : Nat) (runs : List Run) (s : Store) :
    ∀ r ∈ (Run.visitAll w.engine w.autoPass now runs s).1, ∀ t ∈ r.nextInstant?, now < t := by
  induction runs generalizing s with
  | nil => exact List.forall_mem_nil _
  | cons r rest ih =>
    exact List.forall_mem_cons.mpr ⟨lt_nextInstant_visit w now r s, ih _⟩

theorem exists_of_nextInstant {t : Nat} (h : t ∈ d.nextInstant?) :
    ∃ r ∈ d.runs, t ∈ r.nextInstant? :=
  List.mem_filterMap.mp (List.min?_mem h)

theorem lt_nextInstant_settle (d : Dispatcher Store) :
    ∀ t ∈ (d.settle w).nextInstant?, (d.settle w).now < t := by
  intro t ht
  obtain ⟨r, hr, hrt⟩ := exists_of_nextInstant ht
  exact lt_nextInstant_visitAll w d.now d.runs d.engine r hr t hrt

section

variable (hP : Orderly P)

include hP

theorem leadsBy_executeAll (inst : String) (commands : List Command) (d : Dispatcher Store) :
    LeadsBy P w d (after (executeAll w inst commands) d) := by
  induction commands generalizing d with
  | nil => exact .refl P w d
  | cons c rest ih =>
    have hc : LeadsBy P w d (after (execute w inst c) d) :=
      .act (a := .command inst c) (hP.command d inst c)
    rw [executeAll_cons, after_bind]
    unfold after at hc
    cases hrun : execute w inst c d with
    | error e d' =>
      rw [hrun] at hc
      exact hc
    | ok run d' =>
      rw [hrun] at hc
      dsimp only
      rw [after_bind_pure]
      exact hc.trans (ih d')

theorem leadsBy_handle (event : EngineEvent) (d : Dispatcher Store) :
    LeadsBy P (Store.wiring hooks autoPass dispatch) d
      (after (handle (Store.wiring hooks autoPass dispatch) event) d) := by
  rw [after_handle]
  exact leadsBy_executeAll hP event.instanceId (d.engine.commands dispatch event) d

/-- The runs from some place on are visited one after the other. -/
theorem leadsBy_visitAll (w : Wiring Store) (d : Dispatcher Store) (s : Store)
    (fore rest : List Run) : LeadsBy P w { d with engine := s, runs := fore ++ rest } { d with
      engine := (Run.visitAll w.engine w.autoPass d.now rest s).2
      runs := fore ++ (Run.visitAll w.engine w.autoPass d.now rest s).1 } := by
  induction rest generalizing fore s with
  | nil => exact .refl P w _
  | cons r rest ih =>
    have hvisit : LeadsBy P w { d with engine := s, runs := fore ++ r :: rest }
        (visit w fore.length { d with engine := s, runs := fore ++ r :: rest }) :=
      .act (a := .visit fore.length) (hP.visit _ _)
    have hrest := ih (r.visit w.engine w.autoPass d.now s).2
      (fore ++ [(r.visit w.engine w.autoPass d.now s).1])
    simp only [List.append_assoc, List.singleton_append] at hrest
    rw [visit_at] at hvisit
    exact hvisit.trans hrest

theorem leadsBy_settle (d : Dispatcher Store) : LeadsBy P w d (d.settle w) :=
  leadsBy_visitAll hP w d d.engine [] d.runs

theorem leadsBy_wait {t : Nat} (h : d.now ≤ t) (hnext : ∀ t' ∈ d.nextInstant?, t ≤ t') :
    LeadsBy P w d { d with now := t } := by
  have hwait : LeadsBy P w d { d with now := d.now + (t - d.now) } :=
    .act (a := .wait (t - d.now)) (hP.wait _ _ (by rwa [Nat.add_sub_of_le h]))
  rwa [Nat.add_sub_of_le h] at hwait

/-- The clock stops at every instant at which a run acts, so long as none is missed at first. -/
theorem leadsBy_advance (stop : Dispatcher Store → Bool) (limit : Nat) (d : Dispatcher Store)
    (hd : ∀ t ∈ d.nextInstant?, d.now < t) : LeadsBy P w d (advance w stop limit d) := by
  induction d using advance.induct w stop limit with
  | case1 d hstop =>
    rw [advance, if_pos hstop]
    exact .refl P w d
  | case2 d hstop hnext =>
    rw [advance, if_neg hstop, hnext]
    exact leadsBy_wait hP (Nat.le_max_left ..) (by simp [hnext])
  | case3 d hstop t hnext hlimit ih =>
    rw [advance, if_neg hstop, hnext]
    dsimp only
    rw [dif_pos hlimit]
    have hwait : LeadsBy P w d { d with now := t } :=
      leadsBy_wait hP (Nat.le_of_lt hlimit.1) (by simp [hnext])
    exact (hwait.trans (leadsBy_settle hP _)).trans (ih (lt_nextInstant_settle _))
  | case4 d hstop t hnext hlimit =>
    have hlt : d.now < t := hd t hnext
    rw [advance, if_neg hstop, hnext]
    dsimp only
    rw [dif_neg hlimit]
    refine leadsBy_wait hP (Nat.le_max_left ..) fun t' ht' => ?_
    rw [hnext] at ht'
    cases ht'
    omega

theorem leadsBy_move {m : Move} (hm : Meets P d m) :
    LeadsBy P (Store.wiring hooks autoPass dispatch) d
      (d.move (Store.wiring hooks autoPass dispatch) m) := by
  cases m with
  | call call => exact .act (a := .call call) hm
  | handle event => exact leadsBy_handle hP event d
  | spawn inst node => exact .act (a := .spawn inst node) (hP.spawn d inst node)
  | cancel place => exact .act (a := .cancel place) hm
  | sleep millis =>
    exact (leadsBy_settle hP d).trans (leadsBy_advance hP _ _ _ (lt_nextInstant_settle d))
  | await place =>
    show LeadsBy P _ d (d.await _ place)
    unfold await
    split
    · split
      · exact .refl P _ d
      · exact (leadsBy_settle hP d).trans (leadsBy_advance hP _ _ _ (lt_nextInstant_settle d))
    · exact .refl P _ d

/-- **Every history is a list of acts**, and of these all but the calls and cancellations that are
moves themselves meet any orderly condition. -/
theorem leadsBy_play {R : Store → Move → Prop} (hR : ∀ d m, R d.engine m → Meets P d m)
    {moves : List Move} (h : Along (Store.wiring hooks autoPass dispatch) d R moves) :
    LeadsBy P (Store.wiring hooks autoPass dispatch) d
      (d.play (Store.wiring hooks autoPass dispatch) moves) := by
  refine play_induction (motive := fun moves => LeadsBy P _ d (d.play _ moves)) (.refl P _ d) ?_ h
  intro moves m ih hm
  rw [play_concat]
  exact ih.trans (leadsBy_move hP (hR _ m hm))

end

theorem orderly_fair : Orderly fun d a => a.Fair d.engine where
  command _ _ _ := trivial
  spawn _ _ _ := trivial
  visit _ _ := trivial
  wait _ _ _ := trivial

/-- **Every fair history is a list of fair acts.** -/
theorem leads_play {moves : List Move}
    (h : Along (Store.wiring hooks autoPass dispatch) d Move.Fair moves) :
    Leads (Store.wiring hooks autoPass dispatch) d
      (d.play (Store.wiring hooks autoPass dispatch) moves) := by
  have hmeets : ∀ (d : Dispatcher Store) (m : Move), m.Fair d.engine →
      Meets (fun d a => a.Fair d.engine) d m := by
    intro d m hm
    cases m with
    | call call => exact hm
    | handle | spawn | cancel | sleep | await => trivial
  obtain ⟨acts, hacts, heq⟩ := leadsBy_play orderly_fair hmeets h
  exact ⟨acts, fairly_iff.mpr hacts, heq⟩

end Dispatcher

end ApprovalFlow
