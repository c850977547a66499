import ApprovalFlow.Engine.Deploy
import ApprovalFlow.Proofs.Definition.Decoded
import ApprovalFlow.Proofs.Engine.Registry
import ApprovalFlow.Proofs.History.Moves

/-!
# Deployments

To deploy the text of a diagram is to read it, to compile it and to submit the definition. Only the
last step touches the engine, and it fails before it changes anything. The one before it cannot fail,
since what was read can be compiled. A definition that was submitted is there for good: ids are
counted, so no later one takes its place.

- `Dispatcher.sameIds_or_grows`: what a move does to the ids that an engine knows.
- `Dispatcher.numbered_play`, `Dispatcher.extends_play`: nothing that was known is lost.
- `Dispatcher.exists_of_issued`: an id that was given is the id of a number that was counted.
- `Dispatcher.deploy_all_or_nothing`: **a deployment either changes nothing, or it binds a new id to
  the definition of the text for good.**
-/

namespace ApprovalFlow

namespace Store

/-! ## What keeps the ids -/

theorem sameIds_foldl_obey (inst : String) (commands : List Command) (s : Store) :
    s.SameIds (commands.foldl (obey inst) s) := by
  induction commands generalizing s with
  | nil => exact .refl s
  | cons c rest ih =>
    have hc : s.SameIds (s.obey inst c) := by cases c <;> exact ⟨rfl, rfl, rfl, rfl⟩
    exact hc.trans (ih _)

theorem sameIds_passTask {s s' : Store} {id comment : String} (h : s.passTask id comment = .ok s') :
    s.SameIds s' := by
  unfold passTask at h
  split at h
  · obtain rfl := Except.ok.inj h
    exact ⟨rfl, rfl, rfl, rfl⟩
  · cases h

theorem sameIds_completeTask {s s' : Store} {id comment : String} {status : TaskStatus} {t : Task}
    (h : s.completeTask id status comment = .ok (t, s')) : s.SameIds s' := by
  unfold completeTask at h
  split at h
  · obtain ⟨-, rfl⟩ := Prod.mk.inj (Except.ok.inj h)
    exact ⟨rfl, rfl, rfl, rfl⟩
  · cases h

theorem sameIds_look (comment inst node : String) (s : Store) :
    s.SameIds (look engine comment inst node s).2 := by
  rcases look_cases comment inst node s with ⟨h, -⟩ | ⟨t, -, -, -, -, -, h⟩
  · rw [h]
    exact .refl s
  · exact sameIds_passTask h

end Store

namespace Dispatcher

variable {hooks : HookEvent → Except FlowError Unit} {autoPass : AutoPassOptions}
  {dispatch : DispatchOptions} {d : Dispatcher Store}

/-- **A move leaves the known ids alone, or it submits a definition or starts an instance.** -/
theorem sameIds_or_grows (d : Dispatcher Store) (m : Move) :
    d.engine.SameIds (d.move (Store.wiring hooks autoPass dispatch) m).engine ∨
      (∃ p, (d.move (Store.wiring hooks autoPass dispatch) m).engine =
        d.engine.withDefinition p) ∨
      ∃ id, (d.move (Store.wiring hooks autoPass dispatch) m).engine =
        d.engine.withInstance id := by
  cases m with
  | call call =>
    show d.engine.SameIds (d.engine.call call) ∨ (∃ p, d.engine.call call = _) ∨
      ∃ id, d.engine.call call = _
    unfold Store.call
    cases call with
    | submit definition =>
      dsimp only
      cases h : d.engine.submissionFailure with
      | none =>
        rw [Store.submit_eq h]
        exact .inr (.inl ⟨definition, rfl⟩)
      | some reason =>
        rw [Store.submit_refused h]
        exact .inl (.refl _)
    | failSubmissions reason => exact .inl ⟨rfl, rfl, rfl, rfl⟩
    | startInstance processId =>
      dsimp only
      unfold Store.startInstance
      split
      · exact .inr (.inr ⟨processId, rfl⟩)
      · exact .inl (.refl _)
    | createTask inst node batch user cosigned => exact .inl ⟨rfl, rfl, rfl, rfl⟩
    | insertTask task => exact .inl ⟨rfl, rfl, rfl, rfl⟩
    | completeTask id status comment =>
      refine .inl ?_
      dsimp only
      cases h : d.engine.completeTask id status comment with
      | ok r => exact Store.sameIds_completeTask h
      | error e => exact .refl _
    | passTask id comment =>
      refine .inl ?_
      dsimp only
      cases h : d.engine.passTask id comment with
      | ok s => exact Store.sameIds_passTask h
      | error e => exact .refl _
    | finishPending inst node batch status comment => exact .inl ⟨rfl, rfl, rfl, rfl⟩
    | closeBranch inst gateway predecessor outcome comment => exact .inl ⟨rfl, rfl, rfl, rfl⟩
  | handle event =>
    rw [engine_heed]
    exact .inl (Store.sameIds_foldl_obey ..)
  | spawn inst node => exact .inl (.refl _)
  | cancel place => exact .inl (.refl _)
  | sleep millis =>
    exact .inl (kept_sleep (fun _ _ _ _ h => h.trans (Store.sameIds_look ..)) _ (.refl _))
  | await place =>
    exact .inl (kept_await (fun _ _ _ _ h => h.trans (Store.sameIds_look ..)) _ (.refl _))

theorem numbered_move (hd : d.engine.Numbered) (m : Move) :
    (d.move (Store.wiring hooks autoPass dispatch) m).engine.Numbered := by
  rcases sameIds_or_grows d m with h | ⟨p, h⟩ | ⟨id, h⟩
  · exact h.numbered hd
  · rw [h]
    exact hd.withDefinition p
  · rw [h]
    exact hd.withInstance id

theorem extends_move (hd : d.engine.Numbered) (m : Move) :
    d.engine.Extends (d.move (Store.wiring hooks autoPass dispatch) m).engine := by
  rcases sameIds_or_grows d m with h | ⟨p, h⟩ | ⟨id, h⟩
  · exact h.extends
  · rw [h]
    exact hd.extends_withDefinition p
  · rw [h]
    exact hd.extends_withInstance id

/-- Ids in use are counted throughout. -/
theorem numbered_play (hd : d.engine.Numbered) (moves : List Move) :
    (d.play (Store.wiring hooks autoPass dispatch) moves).engine.Numbered := by
  induction moves generalizing d with
  | nil => exact hd
  | cons m rest ih => exact ih (numbered_move hd m)

/-- **Nothing that was known is lost.** -/
theorem extends_play (hd : d.engine.Numbered) (moves : List Move) :
    d.engine.Extends (d.play (Store.wiring hooks autoPass dispatch) moves).engine := by
  induction moves generalizing d with
  | nil => exact (Store.SameIds.refl _).extends
  | cons m rest ih => exact (extends_move hd m).trans (ih (numbered_move hd m))

/-- An instance that is started from a known process runs its definition from then on. -/
theorem started_play (hd : d.engine.Numbered) {id : String} {p : ProcessDefinition}
    (hp : d.engine.definition? id = some p) :
    ∃ inst s, d.engine.startInstance id = .ok (inst, s) ∧ ∀ post,
      let later := (d.play (Store.wiring hooks autoPass dispatch)
        (.call (.startInstance id) :: post)).engine
      Store.engine.definitionFor inst later = .ok p later := by
  refine ⟨_, _, Store.startInstance_eq hp, fun post => ?_⟩
  intro later
  let started : Dispatcher Store := { d with engine := d.engine.withInstance id }
  have hmove : d.move (Store.wiring hooks autoPass dispatch) (.call (.startInstance id)) =
      started := by
    show ({ d with engine := d.engine.call (.startInstance id) } : Dispatcher Store) = started
    unfold Store.call
    dsimp only
    rw [Store.startInstance_eq hp]
    rfl
  have hlater : later = (started.play (Store.wiring hooks autoPass dispatch) post).engine := by
    rw [← hmove]
    rfl
  have hextends : started.engine.Extends later := by
    rw [hlater]
    exact extends_play (hd.withInstance id) post
  unfold Store.engine
  dsimp only
  rw [hextends.definitionFor? (Store.definitionFor?_withInstance hp)]

/-! ## Ids that were given -/

/-- One of the moves submitted a definition that got the process id. -/
def Issued (w : Wiring Store) (moves : List Move) (id : String) : Prop :=
  ∃ pre definition post s, moves = pre ++ .call (.submit definition) :: post ∧
    (initial.play w pre).engine.submit definition = .ok (id, s)

/-- An id that was given is the id of a number that was counted. -/
theorem exists_of_issued {moves : List Move} {id : String}
    (h : Issued (Store.wiring hooks autoPass dispatch) moves id) :
    ∃ k ≤ (initial.play (Store.wiring hooks autoPass dispatch) moves).engine.processCount,
      id = Store.processId k := by
  obtain ⟨pre, definition, post, s, rfl, hsubmit⟩ := h
  have hd : (initial.play (Store.wiring hooks autoPass dispatch) pre).engine.Numbered :=
    numbered_play Store.numbered_empty pre
  rw [play_append]
  generalize initial.play (Store.wiring hooks autoPass dispatch) pre = d at hd hsubmit ⊢
  have hmove : (d.move (Store.wiring hooks autoPass dispatch)
      (.call (.submit definition))).engine = s := by
    show ((d.engine.submit definition).toOption.map (·.2)).getD _ = s
    rw [hsubmit]
    rfl
  cases hfailure : d.engine.submissionFailure with
  | some reason =>
    rw [Store.submit_refused hfailure] at hsubmit
    cases hsubmit
  | none =>
    rw [Store.submit_eq hfailure] at hsubmit
    obtain ⟨rfl, hs⟩ := Prod.mk.inj (Except.ok.inj hsubmit)
    have hextends : (d.move (Store.wiring hooks autoPass dispatch)
        (.call (.submit definition))).engine.Extends
          (d.play (Store.wiring hooks autoPass dispatch)
            (.call (.submit definition) :: post)).engine :=
      extends_play (numbered_move hd _) post
    rw [hmove, ← hs] at hextends
    exact ⟨d.engine.processCount + 1, hextends.processCount, rfl⟩

/-! ## Deploying -/

variable {options : CompilerOptions} {name text : String}

theorem deployText_of_unread {cause : FlowError}
    (h : Diagram.ofText options.unknownNodes text = .error cause) (s : Store) :
    Store.engine.deployText options name text s = .error cause s := by
  unfold Engine.deployText
  rw [h]
  rfl

theorem deployText_eq {diagram : Diagram} {p : ProcessDefinition}
    (h : Diagram.ofText options.unknownNodes text = .ok diagram)
    (hp : diagram.compile options name = .ok p) (s : Store) :
    Store.engine.deployText options name text s =
      match s.submit p with
      | .ok (id, s) => .ok id s
      | .error e => .error e s := by
  unfold Engine.deployText
  rw [h]
  dsimp only
  unfold Engine.deploy
  rw [hp]
  rfl

/-- After some moves a process id is bound to a definition for good. It was not given before and no
other definition changed. At any later time instances can be started from it, and from then on they
run the definition. -/
structure Binds (w : Wiring Store) (moves : List Move) (id : String) (p : ProcessDefinition)
    (s : Store) : Prop where
  unissued : ¬ Issued w moves id
  bound : s.definition? id = some p
  others : ∀ id', id' ≠ id → s.definition? id' = (initial.play w moves).engine.definition? id'
  lasting : ∀ pre,
    let deployed := { initial.play w moves with engine := s }
    ∃ inst s', (deployed.play w pre).engine.startInstance id = .ok (inst, s') ∧ ∀ post,
      let later := (deployed.play w (pre ++ .call (.startInstance id) :: post)).engine
      Store.engine.definitionFor inst later = .ok p later

/-- A definition that was submitted is bound. -/
theorem binds_withDefinition (moves : List Move) (p : ProcessDefinition) :
    let s := (initial.play (Store.wiring hooks autoPass dispatch) moves).engine
    Binds (Store.wiring hooks autoPass dispatch) moves (Store.processId (s.processCount + 1)) p
      (s.withDefinition p) := by
  intro s
  have hs : s.Numbered := numbered_play Store.numbered_empty moves
  have hbound : (s.withDefinition p).definition? (Store.processId (s.processCount + 1)) =
      some p := by
    rw [Store.definition?_withDefinition, if_pos rfl]
  refine ⟨fun hissued => ?_, hbound, fun id' hne => ?_, fun pre => ?_⟩
  · obtain ⟨k, hk, hid⟩ := exists_of_issued hissued
    rw [← Store.processId_inj.mp hid] at hk
    exact absurd hk (Nat.not_succ_le_self _)
  · rw [Store.definition?_withDefinition, if_neg hne]
  · intro deployed
    have hdeployed : deployed.engine.Numbered := hs.withDefinition p
    have hextends : deployed.engine.Extends
        (deployed.play (Store.wiring hooks autoPass dispatch) pre).engine :=
      extends_play hdeployed pre
    simp only [play_append]
    exact started_play (numbered_play hdeployed pre) (hextends.definitions _ p hbound)

/-- **A deployment either changes nothing, or it binds a new id to the definition of the text for
good.** It fails only if the text is not read, with the error of reading it, or if definitions are
refused, with the reason for that: what was read is always compiled. -/
theorem deploy_all_or_nothing (hooks : HookEvent → Except FlowError Unit)
    (autoPass : AutoPassOptions) (dispatch : DispatchOptions) (moves : List Move)
    (options : CompilerOptions) (name text : String) :
    let w := Store.wiring hooks autoPass dispatch
    let s := (initial.play w moves).engine
    (∀ diagram, Diagram.ofText options.unknownNodes text = .ok diagram →
        ∃ p, diagram.compile options name = .ok p) ∧
      match Store.engine.deployText options name text s with
      | .error cause s' => s' = s ∧
          (Diagram.ofText options.unknownNodes text = .error cause ∨
            (∃ diagram, Diagram.ofText options.unknownNodes text = .ok diagram) ∧
              ∃ reason, s.submissionFailure = some reason ∧ cause = .refused reason)
      | .ok id s' => s.submissionFailure = none ∧ ∃ diagram p,
          Diagram.ofText options.unknownNodes text = .ok diagram ∧
            diagram.compile options name = .ok p ∧ Binds w moves id p s' := by
  intro w s
  refine ⟨fun diagram hread => Diagram.exists_compile_of_ofText hread options name, ?_⟩
  cases hread : Diagram.ofText options.unknownNodes text with
  | error cause =>
    rw [deployText_of_unread hread]
    exact ⟨rfl, .inl rfl⟩
  | ok diagram =>
    obtain ⟨p, hp⟩ := Diagram.exists_compile_of_ofText hread options name
    rw [deployText_eq hread hp]
    cases hfailure : s.submissionFailure with
    | some reason =>
      rw [Store.submit_refused hfailure]
      exact ⟨rfl, .inr ⟨⟨diagram, rfl⟩, reason, rfl, rfl⟩⟩
    | none =>
      rw [Store.submit_eq hfailure]
      exact ⟨rfl, diagram, p, rfl, hp, binds_withDefinition moves p⟩

end Dispatcher

end ApprovalFlow
