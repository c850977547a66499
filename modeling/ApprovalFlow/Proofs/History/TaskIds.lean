import ApprovalFlow.Proofs.Engine.Registry
import ApprovalFlow.Proofs.History.Moves

/-!
# Ids of tasks

A request about a task names its id, and the engine takes the first task that has it. So an id means
a task only as long as no task before it has the same. Ids come from two sources: the engine counts
the tasks that it creates and does not look at what is stored, and callers store tasks of their own
under any id, where a task replaces all that have its id. A created task can therefore find its id
taken, and then two tasks have it until somebody stores a task under it once more.

- `Store.IdStep`, `Store.idStep_call`: what one call does to the ids.
- `Store.ofCalls`: the engine after some calls.
- `Store.Claimed`, `Store.nextId`: the ids that callers brought, and the next one that the engine
  gives.
- `Store.Mended`: whenever the engine gave the id though a caller had brought it, a caller brought
  it again.
- `Store.mem_ids_iff`, `Store.count_ids_le_one_iff`: **which ids are in use, and which of them once.**
- `Store.Means`: the id of a task means this task, so that requests change it and no other.
- `Store.ids_apart_iff`: **ids differ iff every clash was mended, and just then every id means its
  task.**
- `Store.given_though_claimed`: a created task that shares its id with one of another instance.
-/

namespace ApprovalFlow

/-- A change that keeps the id of a task keeps the ids of all. -/
theorem Task.map_id_alterFirst {id : String} {f : Task → Task} (hf : ∀ t, (f t).id = t.id)
    {l l' : List Task} {u : Task} (h : alterFirst id f l = some (u, l')) :
    l'.map (·.id) = l.map (·.id) := by
  obtain ⟨pre, t, post, rfl, rfl, -, -⟩ := alterFirst_eq_some h
  simp [hf]

/-- The id of a task means this one if none before it has the same. -/
theorem Task.alterFirst_of_forall_ne {fore rest : List Task} {t : Task}
    (hfore : ∀ u ∈ fore, u.id ≠ t.id) (f : Task → Task) :
    alterFirst t.id f (fore ++ t :: rest) = some (f t, fore ++ f t :: rest) := by
  rw [alterFirst_append, alterFirst_eq_none_iff.mpr hfore, alterFirst, if_pos rfl]
  rfl

/-- A task that is decided can change its status. -/
theorem TaskStatus.exists_ne (status : TaskStatus) : ∃ status', status' ≠ status := by
  by_cases h : status = .passed
  · exact ⟨.rejected, by simp [h]⟩
  · exact ⟨.passed, Ne.symm h⟩

namespace Store

/-- The ids of the stored tasks. -/
def ids (s : Store) : List String := s.tasks.map (·.id)

/-- The id of the created task with a number. -/
def taskId (k : Nat) : String := "task-" ++ toString k

theorem taskId_inj {k k' : Nat} : taskId k = taskId k' ↔ k = k' := by
  unfold taskId
  rw [String.append_right_inj, toString_inj]

/-! ## One call -/

/-- Does the call have the engine create a task? -/
def Call.creates : Call → Bool
  | .createTask .. => true
  | _ => false

/-- Does the caller store a task of its own under the id? -/
def Call.claims (id : String) : Call → Bool
  | .insertTask t => t.id == id
  | _ => false

/-- What a call does to the ids of the stored tasks, and to the number of those that were created. -/
inductive IdStep (s s' : Store) : Call → Prop where
  /-- A created task gets the next id, whoever has it. -/
  | created (inst node batch user : String) (cosigned : Bool)
      (hids : s'.ids = s.ids ++ [taskId (s.taskCount + 1)])
      (hcount : s'.taskCount = s.taskCount + 1) :
      IdStep s s' (.createTask inst node batch user cosigned)
  /-- A task of the caller's own replaces all that have its id. -/
  | stored (t : Task) (hids : s'.ids = s.ids.filter (fun id => id != t.id) ++ [t.id])
      (hcount : s'.taskCount = s.taskCount) : IdStep s s' (.insertTask t)
  | kept (c : Call) (hcreates : c.creates = false) (hclaims : ∀ id, c.claims id = false)
      (hids : s'.ids = s.ids) (hcount : s'.taskCount = s.taskCount) : IdStep s s' c

/-- Every call is one of these. One that fails changes nothing. -/
theorem idStep_call (s : Store) (c : Call) : s.IdStep (s.call c) c := by
  unfold Store.call
  cases c with
  | createTask inst node batch user cosigned => exact .created _ _ _ _ _ List.map_append rfl
  | insertTask t =>
    refine .stored t ?_ rfl
    show (s.tasks.filter _ ++ [t]).map _ = _
    rw [List.map_append, ids, List.filter_map]
    rfl
  | submit definition =>
    refine .kept _ rfl (fun _ => rfl) ?_ ?_ <;>
    · dsimp only
      unfold submit
      split <;> rfl
  | failSubmissions reason => exact .kept _ rfl (fun _ => rfl) rfl rfl
  | startInstance processId =>
    refine .kept _ rfl (fun _ => rfl) ?_ ?_ <;>
    · dsimp only
      unfold startInstance
      split <;> rfl
  | completeTask id status comment =>
    dsimp only
    unfold completeTask
    split
    · rename_i h
      have hid : ∀ t : Task, (t.complete status comment).id = t.id := fun _ => rfl
      exact .kept _ rfl (fun _ => rfl) (Task.map_id_alterFirst hid h) rfl
    · exact .kept _ rfl (fun _ => rfl) rfl rfl
  | passTask id comment =>
    dsimp only
    unfold passTask
    split
    · rename_i h
      have hid : ∀ t : Task, (t.pass comment).id = t.id :=
        fun t => (t.settles_pass comment).origin.1
      exact .kept _ rfl (fun _ => rfl) (Task.map_id_alterFirst hid h) rfl
    · exact .kept _ rfl (fun _ => rfl) rfl rfl
  | finishPending inst node batch status comment =>
    refine .kept _ rfl (fun _ => rfl) ?_ rfl
    show (s.tasks.map _).map _ = _
    rw [List.map_map]
    exact List.map_congr_left fun t _ => (settles_closeAt inst node batch status comment t).origin.1
  | closeBranch inst gateway predecessor outcome comment =>
    exact .kept _ rfl (fun _ => rfl) rfl rfl

/-! ## Some calls -/

/-- The engine after some calls, from the beginning. -/
def ofCalls (calls : List Call) : Store := calls.foldl call {}

theorem ofCalls_concat (calls : List Call) (c : Call) :
    ofCalls (calls ++ [c]) = (ofCalls calls).call c := List.foldl_append

/-- A caller stored a task of its own under the id. -/
def Claimed (calls : List Call) (id : String) : Prop := ∃ c ∈ calls, c.claims id = true

/-- The id that the next created task gets. -/
def nextId (calls : List Call) : String := taskId (calls.countP Call.creates + 1)

/-- Whenever a created task got the id after a caller had stored a task under it, a caller stored one
under it once more. -/
def Mended (calls : List Call) (id : String) : Prop :=
  ∀ pre c post, calls = pre ++ c :: post → c.creates = true → nextId pre = id → Claimed pre id →
    Claimed post id

variable {calls : List Call} {c : Call} {id : String}

@[simp]
theorem claimed_concat : Claimed (calls ++ [c]) id ↔ Claimed calls id ∨ c.claims id = true := by
  simp [Claimed, or_and_right, exists_or]

theorem taskCount_ofCalls (calls : List Call) :
    (ofCalls calls).taskCount = calls.countP Call.creates := by
  induction calls using List.reverseRecOn with
  | nil => rfl
  | append_singleton calls c ih =>
    rw [ofCalls_concat, List.countP_append]
    cases idStep_call (ofCalls calls) c with
    | created _ _ _ _ _ _ hcount => rw [hcount, ih]; rfl
    | stored t _ hcount => rw [hcount, ih]; rfl
    | kept _ hcreates _ _ hcount => simp [hcount, ih, hcreates]

/-- **An id is in use iff a caller stored a task under it, or it was given to a created task.** -/
theorem mem_ids_iff : id ∈ (ofCalls calls).ids ↔
    Claimed calls id ∨ ∃ k < calls.countP Call.creates, id = taskId (k + 1) := by
  induction calls using List.reverseRecOn with
  | nil => simp [ofCalls, ids, Claimed]
  | append_singleton calls c ih =>
    rw [ofCalls_concat, claimed_concat, List.countP_append]
    cases idStep_call (ofCalls calls) c with
    | created _ _ _ _ _ hids _ =>
      rw [hids, List.mem_append, ih, List.mem_singleton, taskCount_ofCalls]
      show _ ↔ (_ ∨ false = true) ∨ ∃ k < calls.countP Call.creates + 1, _
      simp only [Nat.lt_succ_iff_lt_or_eq, or_and_right, exists_or, exists_eq_left,
        Bool.false_eq_true, or_false, or_assoc]
    | stored t hids _ =>
      rw [hids]
      show _ ↔ (_ ∨ (t.id == id) = true) ∨ ∃ k < calls.countP Call.creates, _
      by_cases h : id = t.id
      · simp [h]
      · simp [h, Ne.symm h, ih]
    | kept _ hcreates hclaims hids _ => simp [hids, ih, hcreates, hclaims]

/-- The next id is in use iff a caller stored a task under it: the engine counts on. -/
theorem nextId_mem_ids_iff : nextId calls ∈ (ofCalls calls).ids ↔ Claimed calls (nextId calls) := by
  rw [mem_ids_iff]
  refine or_iff_left ?_
  rintro ⟨k, hk, hid⟩
  have := taskId_inj.mp hid
  omega

/-- One more call mends every clash if it stores a task under the id. Else no new clash may come. -/
theorem mended_concat_iff : Mended (calls ++ [c]) id ↔
    (c.claims id = true ∨ Mended calls id) ∧
      (c.creates = true → nextId calls = id → ¬ Claimed calls id) := by
  constructor
  · intro h
    refine ⟨?_, fun hcreates hid hclaimed => ?_⟩
    · by_cases hc : c.claims id = true
      · exact .inl hc
      · refine .inr fun pre c' post heq hcreates hid hclaimed => ?_
        have hlater := h pre c' (post ++ [c]) (by simp [heq]) hcreates hid hclaimed
        exact (claimed_concat.mp hlater).resolve_right hc
    · obtain ⟨c', hc', -⟩ := h calls c [] rfl hcreates hid hclaimed
      cases hc'
  · rintro ⟨hrest, hlast⟩ pre c' post heq hcreates hid hclaimed
    -- the call is the last one, or one of those before it
    rcases List.eq_nil_or_concat post with rfl | ⟨post, c₀, rfl⟩
    · obtain ⟨rfl, hc⟩ := List.append_inj' heq rfl
      cases hc
      exact absurd hclaimed (hlast hcreates hid)
    · have heq' : calls ++ [c] = (pre ++ c' :: post) ++ [c₀] := by simpa using heq
      obtain ⟨rfl, hc⟩ := List.append_inj' heq' rfl
      cases hc
      rw [List.concat_eq_append, claimed_concat]
      rcases hrest with hc | hmended
      · exact .inr hc
      · exact .inl (hmended pre c' post rfl hcreates hid hclaimed)

/-- An id that no caller claimed never clashes. -/
theorem mended_of_not_claimed (h : ¬ Claimed calls id) : Mended calls id := by
  rintro pre c post rfl - - ⟨c', hc', hclaims⟩
  exact absurd ⟨c', List.mem_append_left _ hc', hclaims⟩ h

/-- **At most one task has the id iff every clash about it is mended.** -/
theorem count_ids_le_one_iff : (ofCalls calls).ids.count id ≤ 1 ↔ Mended calls id := by
  -- on the last call: a created task may be the second one, and a stored task is the only one
  induction calls using List.reverseRecOn with
  | nil =>
    refine iff_of_true (Nat.zero_le 1) (mended_of_not_claimed ?_)
    rintro ⟨c, hc, -⟩
    cases hc
  | append_singleton calls c ih =>
    rw [ofCalls_concat, mended_concat_iff]
    cases idStep_call (ofCalls calls) c with
    | created _ _ _ _ _ hids _ =>
      rw [hids, taskCount_ofCalls, List.count_append]
      show _ + [nextId calls].count id ≤ 1 ↔ _
      by_cases h : nextId calls = id
      · -- the id must not have been in use before
        have hunused : (ofCalls calls).ids.count id = 0 ↔ ¬ Claimed calls id := by
          rw [List.count_eq_zero, ← h, nextId_mem_ids_iff]
        have hone : [nextId calls].count id = 1 := by simp [h]
        have hsum : (ofCalls calls).ids.count id + 1 ≤ 1 ↔ (ofCalls calls).ids.count id = 0 := by
          omega
        rw [hone, hsum, hunused]
        constructor
        · exact fun hnot => ⟨.inr (mended_of_not_claimed hnot), fun _ _ => hnot⟩
        · exact fun hmended => hmended.2 rfl h
      · simp [h, ih, Call.claims]
    | stored t hids _ =>
      rw [hids, List.count_append]
      by_cases h : t.id = id
      · subst h
        have hnone : ((ofCalls calls).ids.filter fun i => i != t.id).count t.id = 0 := by
          rw [List.count_eq_zero, List.mem_filter]
          simp
        simp [hnone, Call.claims, Call.creates]
      · have hkept : ((ofCalls calls).ids.filter fun i => i != t.id).count id =
            (ofCalls calls).ids.count id := List.count_filter (by simpa using Ne.symm h)
        simp [hkept, h, ih, Call.claims, Call.creates]
    | kept _ hcreates hclaims hids _ => simp [hids, ih, hcreates, hclaims]

/-! ## Requests that name an id -/

/-- The id of a stored task means this task: it is the one that is found, and passing or deciding by
the id changes it and no other. -/
structure Means (s : Store) (fore : List Task) (t : Task) (rest : List Task) : Prop where
  stored : s.tasks = fore ++ t :: rest
  found : s.task? t.id = some t
  passed : ∀ comment, s.passTask t.id comment =
    .ok { s with tasks := fore ++ t.pass comment :: rest }
  decided : ∀ status comment, s.completeTask t.id status comment =
    .ok (t.complete status comment, { s with tasks := fore ++ t.complete status comment :: rest })

variable {s : Store} {fore rest : List Task} {t : Task}

/-- The id of a task means this task iff no task before it has the id. -/
theorem means_iff (hstored : s.tasks = fore ++ t :: rest) :
    s.Means fore t rest ↔ ∀ u ∈ fore, u.id ≠ t.id := by
  constructor
  · intro h u hu hid
    -- the first task before it that has the id would be decided in its place
    obtain ⟨v, hv⟩ : ∃ v, fore.find? (fun u => u.id == t.id) = some v :=
      Option.isSome_iff_exists.mp (List.find?_isSome.mpr ⟨u, hu, beq_iff_eq.mpr hid⟩)
    obtain ⟨status, hstatus⟩ := v.status.exists_ne
    obtain ⟨fore', hfore'⟩ := Task.exists_alterFirst (Task.complete status "") hv
    have hdecided := h.decided status ""
    rw [completeTask, hstored, Task.alterFirst_append, hfore'] at hdecided
    have htasks : fore' ++ t :: rest = fore ++ t.complete status "" :: rest :=
      congrArg Store.tasks (Prod.mk.inj (Except.ok.inj hdecided)).2
    obtain ⟨pre, v', post, rfl, rfl, -, hv'⟩ := Task.alterFirst_eq_some hfore'
    obtain rfl := Option.some.inj (hv.symm.trans hv')
    have hsame := List.append_cancel_left (List.append_inj htasks (by simp)).1
    exact hstatus (congrArg Task.status (List.cons.inj hsame).1)
  · intro hfore
    refine ⟨hstored, ?_, fun comment => ?_, fun status comment => ?_⟩
    · show s.tasks.find? _ = some t
      rw [hstored, List.find?_append, List.find?_eq_none.mpr fun u hu => by simpa using hfore u hu,
        Task.find?_id_cons, if_pos rfl]
      rfl
    · rw [passTask, hstored, Task.alterFirst_of_forall_ne hfore]
    · rw [completeTask, hstored, Task.alterFirst_of_forall_ne hfore]

/-- Ids differ iff every id means its task. -/
theorem nodup_ids_iff : s.ids.Nodup ↔
    ∀ fore t rest, s.tasks = fore ++ t :: rest → s.Means fore t rest := by
  have hpairs : s.ids.Nodup ↔ s.tasks.Pairwise fun u t => u.id ≠ t.id := List.pairwise_map
  rw [hpairs]
  constructor
  · intro h fore t rest hstored
    rw [hstored] at h
    exact (means_iff hstored).mpr fun u hu =>
      (List.pairwise_append.mp h).2.2 u hu t List.mem_cons_self
  · intro h
    refine List.pairwise_iff_getElem.mpr fun i j hi hj hij => ?_
    have hstored : s.tasks = s.tasks.take j ++ s.tasks[j] :: s.tasks.drop (j + 1) := by simp
    refine (means_iff hstored).mp (h _ _ _ hstored) _ ?_
    exact List.mem_take_iff_getElem.mpr ⟨i, by omega, rfl⟩

/-- A created task is the one that its id means iff no caller claimed the id before. -/
theorem means_created_iff (inst node batch user : String) (cosigned : Bool) :
    ((ofCalls calls).createTask inst node batch user cosigned).2.Means (ofCalls calls).tasks
      ((ofCalls calls).createTask inst node batch user cosigned).1 [] ↔
        ¬ Claimed calls (nextId calls) := by
  rw [means_iff rfl, ← nextId_mem_ids_iff]
  have hid : ((ofCalls calls).createTask inst node batch user cosigned).1.id = nextId calls :=
    congrArg (fun k => taskId (k + 1)) (taskCount_ofCalls calls)
  rw [hid]
  simp [ids]

/-- **Tasks have different ids iff every id that was given though a caller had claimed it was claimed
once more, and just then every id means its task.** In particular a created task is the one stored
under its id as long as callers keep away from the ids that the engine has yet to give. -/
theorem ids_apart_iff (calls : List Call) :
    ((ofCalls calls).ids.Nodup ↔ ∀ id, Mended calls id) ∧
      ((ofCalls calls).ids.Nodup ↔ ∀ fore t rest, (ofCalls calls).tasks = fore ++ t :: rest →
        (ofCalls calls).Means fore t rest) ∧
      ∀ inst node batch user cosigned,
        ((ofCalls calls).createTask inst node batch user cosigned).2.Means (ofCalls calls).tasks
          ((ofCalls calls).createTask inst node batch user cosigned).1 [] ↔
            ¬ Claimed calls (nextId calls) := by
  refine ⟨?_, nodup_ids_iff, means_created_iff⟩
  rw [List.nodup_iff_count_le_one]
  exact forall_congr' fun id => count_ids_le_one_iff

/-- A caller stored a task under an id of the engine's own. The engine then creates a task of another
instance under the same id, and whoever passes the created task passes the other one. -/
theorem given_though_claimed :
    let calls : List Call :=
      [.insertTask ⟨"task-1", "inst-1", "U", "b1", "ann", .pending, false, false, ""⟩,
        .createTask "inst-2" "V" "b2" "bob" false]
    (ofCalls calls).ids = ["task-1", "task-1"] ∧
      (ofCalls (calls ++ [.passTask "task-1" "yes"])).tasks.map (fun t => (t.instanceId, t.status)) =
        [("inst-1", .passed), ("inst-2", .pending)] := by
  decide

end Store

end ApprovalFlow
