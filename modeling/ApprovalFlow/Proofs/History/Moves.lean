import ApprovalFlow.Dispatcher.Clock
import ApprovalFlow.Proofs.Dispatcher.Effects
import Mathlib.Data.List.Induction

/-!
# Histories

An engine in memory and the dispatcher that serves it are moved by others: definitions are submitted
and tasks created, approvers decide, events are delivered, time passes. A history is any list of such
moves. Most statements about histories are inductions on their last move, and to the stored tasks
every move does one of few things. Hooks answer at once here: what happens while one is waited for
comes right after its event in the history.

- `Store.Call`, `Move`: the calls of the engine, and all moves.
- `Dispatcher.play`: the state after some moves. A move that fails is made all the same.
- `Dispatcher.Along`: something holds of each move at the time when it is made.
- `look_cases`: a look at a node passes one task at most, which is open there.
- `Dispatcher.kept_advance`: what every look at a node keeps, the passing of time keeps.
- `Move.Fair`: approvers decide only on open tasks, and tasks come from the engine.
- `Dispatcher.settles_move`: **a fair move settles tasks, or it creates one.**
-/

namespace ApprovalFlow

/-- A call of an engine in memory. -/
inductive Store.Call where
  | submit (definition : ProcessDefinition)
  | failSubmissions (reason : String)
  | startInstance (processId : String)
  | createTask (instanceId nodeId batch userId : String) (cosigned : Bool)
  | insertTask (task : Task)
  | completeTask (id : String) (status : TaskStatus) (comment : String)
  | passTask (id comment : String)
  | finishPending (instanceId nodeId : String) (batch : Option String) (status : TaskStatus)
      (comment : String)
  | closeBranch (instanceId gateway predecessor : String) (outcome : BranchOutcome)
      (comment : String)
  deriving DecidableEq

/-- The engine after a call; one that fails changes nothing. -/
def Store.call (s : Store) : Store.Call → Store
  | .submit definition => ((s.submit definition).toOption.map (·.2)).getD s
  | .failSubmissions reason => s.failSubmissions reason
  | .startInstance processId => ((s.startInstance processId).toOption.map (·.2)).getD s
  | .createTask inst node batch user cosigned => (s.createTask inst node batch user cosigned).2
  | .insertTask task => s.insertTask task
  | .completeTask id status comment =>
    ((s.completeTask id status comment).toOption.map (·.2)).getD s
  | .passTask id comment => (s.passTask id comment).toOption.getD s
  | .finishPending inst node batch status comment =>
    (s.finishPending inst node batch status comment).2
  | .closeBranch inst gateway predecessor outcome comment =>
    s.closeBranch inst gateway predecessor outcome comment

/-- What can happen to an engine in memory and its dispatcher. -/
inductive Move where
  | call (call : Store.Call)
  | handle (event : EngineEvent)
  | spawn (instanceId nodeId : String)
  | cancel (place : Nat)
  | sleep (millis : Nat)
  | await (place : Nat)
  deriving DecidableEq

namespace Dispatcher

/-- The beginning: an engine that stores nothing, and its dispatcher. -/
def initial : Dispatcher Store := { engine := {} }

/-- The state after a move. -/
def move (w : Wiring Store) (d : Dispatcher Store) : Move → Dispatcher Store
  | .call call => { d with engine := d.engine.call call }
  | .handle event => after (handle w event) d
  | .spawn inst node => (d.spawn w inst node).2
  | .cancel place => d.cancel place
  | .sleep millis => d.sleep w millis
  | .await place => d.await w place

/-- The state after some moves. -/
def play (w : Wiring Store) (d : Dispatcher Store) (moves : List Move) : Dispatcher Store :=
  moves.foldl (move w) d

theorem play_append (w : Wiring Store) (d : Dispatcher Store) (moves moves' : List Move) :
    d.play w (moves ++ moves') = (d.play w moves).play w moves' :=
  List.foldl_append

theorem play_concat (w : Wiring Store) (d : Dispatcher Store) (moves : List Move) (m : Move) :
    d.play w (moves ++ [m]) = (d.play w moves).move w m :=
  play_append w d moves [m]

theorem forall_split_nil {P : List Move → Move → List Move → Prop} :
    (∀ pre m post, [] = pre ++ m :: post → P pre m post) ↔ True :=
  iff_true_intro fun pre m post h => by simp at h

/-- To go through the places of some moves is to look at the first and then at those after it. -/
theorem forall_split_cons {P : List Move → Move → List Move → Prop} {m : Move}
    {moves : List Move} :
    (∀ pre m' post, m :: moves = pre ++ m' :: post → P pre m' post) ↔
      P [] m moves ∧ ∀ pre m' post, moves = pre ++ m' :: post → P (m :: pre) m' post := by
  constructor
  · intro h
    exact ⟨h [] m moves rfl, fun pre m' post heq => h (m :: pre) m' post (by rw [heq]; rfl)⟩
  · rintro ⟨hfirst, hrest⟩ pre m' post heq
    cases pre with
    | nil =>
      rw [List.nil_append] at heq
      obtain ⟨rfl, rfl⟩ := List.cons.inj heq
      exact hfirst
    | cons m₀ pre =>
      rw [List.cons_append] at heq
      obtain ⟨hm, hmoves⟩ := List.cons.inj heq
      rw [← hm]
      exact hrest pre m' post hmoves

/-- Something holds of each move, and of the engine right before it. -/
def Along (w : Wiring Store) (d : Dispatcher Store) (P : Store → Move → Prop)
    (moves : List Move) : Prop :=
  ∀ pre m post, moves = pre ++ m :: post → P (d.play w pre).engine m

namespace Along

variable {w : Wiring Store} {d : Dispatcher Store} {P : Store → Move → Prop}
  {moves moves' : List Move}

/-- What holds along some moves holds along the first of them. -/
theorem left (h : Along w d P (moves ++ moves')) : Along w d P moves := by
  intro pre m post heq
  refine h pre m (post ++ moves') ?_
  rw [heq, List.append_assoc, List.cons_append]

/-- It holds along the last of them, from the state where these begin. -/
theorem right (h : Along w d P (moves ++ moves')) : Along w (d.play w moves) P moves' := by
  intro pre m post heq
  have hm := h (moves ++ pre) m post (by rw [heq, List.append_assoc])
  rwa [play_append] at hm

theorem last {m : Move} (h : Along w d P (moves ++ [m])) : P (d.play w moves).engine m :=
  h moves m [] rfl

theorem nil (w : Wiring Store) (d : Dispatcher Store) (P : Store → Move → Prop) :
    Along w d P [] :=
  forall_split_nil.mpr trivial

theorem cons_iff {m : Move} :
    Along w d P (m :: moves) ↔ P d.engine m ∧ Along w (d.move w m) P moves :=
  forall_split_cons

/-- What can be decided of one move can be decided along some. -/
instance decidable (w : Wiring Store) (P : Store → Move → Prop) [∀ s, DecidablePred (P s)] :
    ∀ (moves : List Move) (d : Dispatcher Store), Decidable (Along w d P moves)
  | [], d => isTrue (nil w d P)
  | m :: moves, d =>
    have := decidable w P moves (d.move w m)
    decidable_of_iff (P d.engine m ∧ Along w (d.move w m) P moves) cons_iff.symm

end Along

/-- **Induction on the last move**: what holds at first and is kept by every move that is allowed
holds after any moves that are. -/
theorem play_induction {w : Wiring Store} {d : Dispatcher Store} {P : Store → Move → Prop}
    {motive : List Move → Prop} (hnil : motive [])
    (hconcat : ∀ moves m, motive moves → P (d.play w moves).engine m → motive (moves ++ [m]))
    {moves : List Move} (hmoves : Along w d P moves) : motive moves := by
  induction moves using List.reverseRecOn with
  | nil => exact hnil
  | append_singleton moves m ih => exact hconcat moves m (ih hmoves.left) hmoves.last

end Dispatcher

/-! ## Time

Time passes by looks: whatever is waited for, the engine changes only when a run looks at its node.
-/

variable {hooks : HookEvent → Except FlowError Unit} {autoPass : AutoPassOptions}
  {dispatch : DispatchOptions}

/-- A look at a node changes nothing, or it completes a task that is open there, by passing it. -/
theorem look_cases (comment inst node : String) (s : Store) :
    (look Store.engine comment inst node s).2 = s ∧
        (∀ id, (look Store.engine comment inst node s).1 ≠ .completed id) ∨
      ∃ t ∈ s.tasks, t.finished = false ∧ t.instanceId = inst ∧ t.nodeId = node ∧
        (look Store.engine comment inst node s).1 = .completed t.id ∧
        s.passTask t.id comment = .ok (look Store.engine comment inst node s).2 := by
  unfold look Store.engine
  dsimp only
  cases hfind : (s.tasksAt inst node).find? fun t => !t.finished with
  | none => exact .inl ⟨rfl, nofun⟩
  | some t =>
    obtain ⟨ht, hat⟩ := List.mem_filter.mp (List.mem_of_find?_eq_some hfind)
    have hopen : t.finished = false := by simpa using List.find?_some hfind
    rw [Bool.and_eq_true, beq_iff_eq, beq_iff_eq] at hat
    dsimp only
    cases hpass : s.passTask t.id comment with
    | ok s' => exact .inr ⟨t, ht, hopen, hat.1, hat.2, rfl, hpass⟩
    | error e => exact .inl ⟨rfl, nofun⟩

theorem settles_look (comment inst node : String) (s : Store) :
    s.Settles (look Store.engine comment inst node s).2 := by
  rcases look_cases comment inst node s with ⟨h, -⟩ | ⟨t, -, -, -, -, -, h⟩
  · rw [h]
    exact .refl s
  · exact Store.settles_passTask h

section Time

variable {P : Store → Prop}
  (hlook : ∀ comment inst node s, P s → P (look Store.engine comment inst node s).2)

include hlook

theorem Run.kept_visit (options : AutoPassOptions) (now : Nat) (r : Run) {s : Store} (hs : P s) :
    P (r.visit Store.engine options now s).2 := by
  unfold Run.visit
  split
  · exact hs
  · dsimp only
    split
    · exact hlook _ _ _ s hs
    · exact hs

theorem Run.kept_visitAll (options : AutoPassOptions) (now : Nat) (runs : List Run) {s : Store}
    (hs : P s) : P (Run.visitAll Store.engine options now runs s).2 := by
  induction runs generalizing s with
  | nil => exact hs
  | cons r rest ih => exact ih (r.kept_visit hlook options now hs)

namespace Dispatcher

variable {d : Dispatcher Store}

theorem kept_settle (hd : P d.engine) :
    P (d.settle (Store.wiring hooks autoPass dispatch)).engine :=
  Run.kept_visitAll hlook autoPass d.now d.runs hd

/-- **What every look keeps, the passing of time keeps**, whatever it waits for. -/
theorem kept_advance (stop : Dispatcher Store → Bool) (limit : Nat) (hd : P d.engine) :
    P (advance (Store.wiring hooks autoPass dispatch) stop limit d).engine := by
  induction d using advance.induct (Store.wiring hooks autoPass dispatch) stop limit with
  | case1 d hstop =>
    rw [advance, if_pos hstop]
    exact hd
  | case2 d hstop hnext =>
    rw [advance, if_neg hstop, hnext]
    exact hd
  | case3 d hstop t hnext hlimit ih =>
    rw [advance, if_neg hstop, hnext]
    dsimp only
    rw [dif_pos hlimit]
    exact ih (kept_settle (d := { d with now := t }) hlook hd)
  | case4 d hstop t hnext hlimit =>
    rw [advance, if_neg hstop, hnext]
    dsimp only
    rw [dif_neg hlimit]
    exact hd

theorem kept_sleep (millis : Nat) (hd : P d.engine) :
    P (d.sleep (Store.wiring hooks autoPass dispatch) millis).engine :=
  kept_advance hlook _ _ (kept_settle hlook hd)

theorem kept_await (place : Nat) (hd : P d.engine) :
    P (d.await (Store.wiring hooks autoPass dispatch) place).engine := by
  unfold await
  split
  · split
    · exact hd
    · exact kept_advance hlook _ _ (kept_settle hlook hd)
  · exact hd

end Dispatcher

end Time

/-! ## Fair moves -/

/-- Is a task decided only if it is open, and does every new one come from the engine? -/
def Move.Fair (s : Store) : Move → Prop
  | .call (.completeTask id status _) => status ≠ .pending ∧ ∀ t ∈ s.task? id, t.finished = false
  | .call (.insertTask _) => False
  | _ => True

instance (s : Store) : DecidablePred (Move.Fair s) := fun m =>
  match m with
  | .call (.completeTask ..) => inferInstanceAs (Decidable (_ ∧ _))
  | .call (.insertTask _) => inferInstanceAs (Decidable False)
  | .call (.submit _) | .call (.failSubmissions _) | .call (.startInstance _)
  | .call (.createTask ..) | .call (.passTask ..) | .call (.finishPending ..)
  | .call (.closeBranch ..) | .handle _ | .spawn .. | .cancel _ | .sleep _ | .await _ =>
    inferInstanceAs (Decidable True)

namespace Dispatcher

theorem engine_move_handle (event : EngineEvent) (d : Dispatcher Store) :
    (d.move (Store.wiring hooks autoPass dispatch) (.handle event)).engine =
      (d.engine.commands dispatch event).foldl (Store.obey event.instanceId) d.engine :=
  engine_after_handle event d

theorem engine_heed (event : EngineEvent) (d : Dispatcher Store) :
    (d.move (Store.wiring hooks autoPass dispatch) (.handle event)).engine =
      d.engine.heed dispatch event :=
  engine_after_handle event d

theorem settles_handle (event : EngineEvent) (d : Dispatcher Store) :
    d.engine.Settles (d.move (Store.wiring hooks autoPass dispatch) (.handle event)).engine := by
  rw [engine_move_handle]
  exact Store.settles_foldl_obey ..

/-- **A fair move settles tasks, or it creates one.** -/
theorem settles_move {d : Dispatcher Store} {m : Move} (hm : m.Fair d.engine) :
    d.engine.Settles (d.move (Store.wiring hooks autoPass dispatch) m).engine ∨
      ∃ inst node batch user cosigned, m = .call (.createTask inst node batch user cosigned) := by
  cases m with
  | call call =>
    show d.engine.Settles (d.engine.call call) ∨ _
    unfold Store.call
    cases call with
    | submit definition =>
      refine .inl ?_
      dsimp only
      unfold Store.submit
      split <;> exact .of_tasks_eq rfl
    | failSubmissions reason => exact .inl (.of_tasks_eq rfl)
    | startInstance processId =>
      refine .inl ?_
      dsimp only
      unfold Store.startInstance
      split <;> exact .of_tasks_eq rfl
    | createTask inst node batch user cosigned => exact .inr ⟨inst, node, batch, user, cosigned, rfl⟩
    | insertTask task => cases hm
    | completeTask id status comment =>
      refine .inl ?_
      dsimp only
      cases h : d.engine.completeTask id status comment with
      | ok r =>
        obtain ⟨u, s⟩ := r
        exact Store.settles_completeTask h hm.1 hm.2
      | error e => exact .refl _
    | passTask id comment =>
      refine .inl ?_
      dsimp only
      cases h : d.engine.passTask id comment with
      | ok s => exact Store.settles_passTask h
      | error e => exact .refl _
    | finishPending inst node batch status comment =>
      exact .inl (Store.settles_finishPending ..)
    | closeBranch inst gateway predecessor outcome comment => exact .inl (.of_tasks_eq rfl)
  | handle event => exact .inl (settles_handle event d)
  | spawn inst node => exact .inl (.refl _)
  | cancel place => exact .inl (.refl _)
  | sleep millis => exact .inl (kept_sleep (fun _ _ _ _ h => h.trans (settles_look ..)) _ (.refl _))
  | await place => exact .inl (kept_await (fun _ _ _ _ h => h.trans (settles_look ..)) _ (.refl _))

end Dispatcher

end ApprovalFlow
