import ApprovalFlow.Progress
import ApprovalFlow.Proofs.Task.Ledger
import ApprovalFlow.Proofs.Topology.Links
import ApprovalFlow.Proofs.Topology.Shortest

/-!
# What progress shows

The progress of an instance is put together from a ledger of batches, a table of nodes and paths
between them. All of it can be said of the tasks and nodes as they are listed, and of the shortest
paths. A link is drawn as gone along if it is on the path between two nodes that were reached and no
other task lies between these; so its ends are such nodes or have no task at all.

- `Progress.Stale`, `Progress.Settles`, `Progress.Completed`, `Progress.Active`: batches, tasks and
  nodes, read off the tasks.
- `Progress.stateOf_eq_completed_iff`, `Progress.stateOf_eq_active_iff`: how a node stands.
- `Progress.GoneAlong`: the links between nodes that were reached.
- `Progress.ofTasks_shows`: **the progress shows what the tasks say**, batch by batch, node by node
  and link by link.
-/

namespace ApprovalFlow.Progress

/-! ## Batches and nodes, as the tasks say -/

/-- Is there a proxy of the id? -/
def IsProxyId (nodes : List ProcessNode) (id : String) : Prop :=
  ∃ n ∈ nodes, n.id = id ∧ n.isProxy = true

/-- Is there a task at the id? -/
def HasTask (tasks : List Task) (id : String) : Prop := ∃ t ∈ tasks, t.nodeId = id

/-- Does a batch no longer count? A task of another batch at the node is pending, or the system
passed a task of this one. -/
def Stale (tasks : List Task) (node batch : String) : Prop :=
  (∃ t ∈ tasks, t.nodeId = node ∧ t.batch ≠ batch ∧ t.status = .pending) ∨
    ∃ t ∈ tasks, t.nodeId = node ∧ t.batch = batch ∧ t.status = .systemPassed

/-- Must everybody agree whose task is in the batch of this one? -/
def NeedsAll (nodes : List ProcessNode) (t : Task) : Prop :=
  t.cosigned = true ∨ ∃ n ∈ nodes, n.id = t.nodeId ∧ n.cosigned = true

/-- Does a task settle its batch? It is finished and passed, and so are all tasks of the batch where
everybody must agree. -/
def Settles (nodes : List ProcessNode) (tasks : List Task) (t : Task) : Prop :=
  t.finished = true ∧ t.status = .passed ∧
    (¬ NeedsAll nodes t ∨ ∀ u ∈ tasks, u.nodeId = t.nodeId → u.batch = t.batch → u.status = .passed)

/-- Is a node done with? A batch that counts is settled. -/
def Completed (nodes : List ProcessNode) (tasks : List Task) (id : String) : Prop :=
  ¬ IsProxyId nodes id ∧
    ∃ t ∈ tasks, t.nodeId = id ∧ ¬ Stale tasks id t.batch ∧ Settles nodes tasks t

/-- Is a node at work? It is not done with, and a task of a batch that counts is pending. -/
def Active (nodes : List ProcessNode) (tasks : List Task) (id : String) : Prop :=
  ¬ IsProxyId nodes id ∧ ¬ Completed nodes tasks id ∧
    ∃ t ∈ tasks, t.nodeId = id ∧ ¬ Stale tasks id t.batch ∧ t.status = .pending

section

variable (nodes : List ProcessNode) (tasks : List Task) (id batch : String) (t : Task)

instance : Decidable (IsProxyId nodes id) :=
  inferInstanceAs (Decidable (∃ n ∈ nodes, _))

instance : Decidable (Stale tasks id batch) := inferInstanceAs (Decidable (_ ∨ _))

instance : Decidable (NeedsAll nodes t) := inferInstanceAs (Decidable (_ ∨ _))

instance : Decidable (Settles nodes tasks t) := inferInstanceAs (Decidable (_ ∧ _ ∧ _))

instance : Decidable (Completed nodes tasks id) := inferInstanceAs (Decidable (_ ∧ _))

instance : Decidable (Active nodes tasks id) := inferInstanceAs (Decidable (_ ∧ _ ∧ _))

end

variable {nodes : List ProcessNode} {table : NodeTable} {tasks : List Task} {id node batch : String}
  {t : Task} {path : List String}

/-! ## How a node stands -/

/-- The ids with a task that stand so. -/
def nodesIn (nodes : List ProcessNode) (tasks : List Task) (state : NodeState) : List String :=
  (taskNodes (.ofNodes nodes) tasks).filter fun id =>
    stateOf (.ofTasks (.ofList nodes) tasks) tasks id == state

theorem isStale_iff : isStale (.ofTasks table tasks) node batch = true ↔ Stale tasks node batch := by
  unfold isStale Stale
  rw [Bool.or_eq_true, Ledger.hasOtherPending_iff, Ledger.isTainted_iff]

/-- The batches that count are those of tasks, but for the stale ones. -/
theorem mem_liveBatches_iff : batch ∈ liveBatches (.ofTasks table tasks) node ↔
    (∃ t ∈ tasks, t.nodeId = node ∧ t.batch = batch) ∧ ¬ Stale tasks node batch := by
  unfold liveBatches
  rw [List.mem_filter, Ledger.mem_batchesAt_iff, Bool.not_eq_true', ← Bool.not_eq_true, isStale_iff]

/-- A batch that counts is open iff it has a pending task. -/
theorem exists_live_pending_iff (table : NodeTable) :
    ((liveBatches (.ofTasks table tasks) node).any fun b =>
        decide (0 < ((Ledger.ofTasks table tasks).tally node b).pending)) = true ↔
      ∃ t ∈ tasks, t.nodeId = node ∧ ¬ Stale tasks node t.batch ∧ t.status = .pending := by
  rw [List.any_eq_true]
  simp only [decide_eq_true_iff, Ledger.pending_pos_iff, mem_liveBatches_iff]
  constructor
  · rintro ⟨b, ⟨-, hlive⟩, t, ht, hnode, rfl, hpending⟩
    exact ⟨t, ht, hnode, hlive, hpending⟩
  · rintro ⟨t, ht, hnode, hlive, hpending⟩
    exact ⟨t.batch, ⟨⟨t, ht, hnode, rfl⟩, hlive⟩, t, ht, hnode, rfl, hpending⟩

section

variable (hnodes : (nodes.map (·.id)).Nodup)

include hnodes

theorem isProxy_node?_iff :
    (((Topology.ofNodes nodes).node? id).map ProcessNode.isProxy).getD false = true ↔
      IsProxyId nodes id := by
  have hfind : (Topology.ofNodes nodes).node? id = (NodeTable.ofList nodes).find? id := rfl
  unfold IsProxyId
  rw [hfind]
  simp only [← and_assoc, ← NodeTable.find?_ofList_iff hnodes]
  cases (NodeTable.ofList nodes).find? id <;> simp

/-- The ids that are looked at have a task, and no proxy is among them. -/
theorem mem_taskNodes_iff :
    id ∈ taskNodes (.ofNodes nodes) tasks ↔ HasTask tasks id ∧ ¬ IsProxyId nodes id := by
  unfold taskNodes HasTask
  rw [List.mem_filter, SortedSet.mem_keys_ofList_iff, List.mem_map, Bool.not_eq_true',
    ← Bool.not_eq_true, isProxy_node?_iff hnodes]

theorem isSettledBy_iff (ht : t ∈ tasks) :
    (Ledger.ofTasks (.ofList nodes) tasks).isSettledBy t = true ↔ Settles nodes tasks t := by
  have hall : ((Ledger.ofTasks (.ofList nodes) tasks).tally t.nodeId t.batch).allPassed = true ↔
      ∀ u ∈ tasks, u.nodeId = t.nodeId → u.batch = t.batch → u.status = .passed :=
    Ledger.allPassed_iff.trans (and_iff_right ⟨t, ht, rfl, rfl⟩)
  unfold Ledger.isSettledBy Task.isPassed Settles NeedsAll
  rw [Bool.and_eq_true, Bool.and_eq_true, beq_iff_eq, Bool.or_eq_true, Bool.not_eq_true',
    ← Bool.not_eq_true, Bool.or_eq_true, Ledger.isCosigned_iff hnodes, hall, and_assoc]

/-- A batch that counts is settled iff one of its tasks settles it. -/
theorem exists_live_settled_iff :
    ((liveBatches (.ofTasks (.ofList nodes) tasks) node).any
        (isSettled (.ofTasks (.ofList nodes) tasks) tasks node)) = true ↔
      ∃ t ∈ tasks, t.nodeId = node ∧ ¬ Stale tasks node t.batch ∧ Settles nodes tasks t := by
  unfold isSettled
  simp only [List.any_eq_true, Bool.and_eq_true, beq_iff_eq, mem_liveBatches_iff]
  constructor
  · rintro ⟨b, ⟨-, hlive⟩, t, ht, ⟨hnode, rfl⟩, hsettled⟩
    exact ⟨t, ht, hnode, hlive, (isSettledBy_iff hnodes ht).mp hsettled⟩
  · rintro ⟨t, ht, hnode, hlive, hsettles⟩
    exact ⟨t.batch, ⟨⟨t, ht, hnode, rfl⟩, hlive⟩, t, ht, ⟨hnode, rfl⟩,
      (isSettledBy_iff hnodes ht).mpr hsettles⟩

theorem stateOf_eq_completed_iff :
    stateOf (.ofTasks (.ofList nodes) tasks) tasks node = .completed ↔
      ∃ t ∈ tasks, t.nodeId = node ∧ ¬ Stale tasks node t.batch ∧ Settles nodes tasks t := by
  rw [← exists_live_settled_iff hnodes]
  unfold stateOf
  dsimp only
  split
  · exact iff_of_true rfl ‹_›
  · split <;> exact iff_of_false nofun ‹_›

theorem stateOf_eq_active_iff :
    stateOf (.ofTasks (.ofList nodes) tasks) tasks node = .active ↔
      (¬ ∃ t ∈ tasks, t.nodeId = node ∧ ¬ Stale tasks node t.batch ∧ Settles nodes tasks t) ∧
        ∃ t ∈ tasks, t.nodeId = node ∧ ¬ Stale tasks node t.batch ∧ t.status = .pending := by
  rw [← exists_live_settled_iff hnodes, ← exists_live_pending_iff (.ofList nodes)]
  unfold stateOf
  dsimp only
  split
  · exact iff_of_false nofun fun h => h.1 ‹_›
  · split
    · exact iff_of_true rfl ⟨‹_›, ‹_›⟩
    · exact iff_of_false nofun fun h => absurd h.2 ‹_›

/-! ## What is shown of them -/

theorem mem_stale_iff : ⟨node, batch⟩ ∈ (ofTasks nodes tasks).stale.keys ↔
    ¬ IsProxyId nodes node ∧ (∃ t ∈ tasks, t.nodeId = node ∧ t.batch = batch) ∧
      Stale tasks node batch := by
  unfold ofTasks
  rw [SortedSet.mem_keys_ofList_iff, List.mem_flatMap]
  simp only [mem_taskNodes_iff hnodes, List.mem_map, List.mem_filter, Ledger.mem_batchesAt_iff,
    isStale_iff, BatchKey.mk.injEq]
  constructor
  · rintro ⟨id, ⟨-, hproxy⟩, b, ⟨hbatch, hstale⟩, rfl, rfl⟩
    exact ⟨hproxy, hbatch, hstale⟩
  · rintro ⟨hproxy, ⟨t, ht, rfl, rfl⟩, hstale⟩
    exact ⟨t.nodeId, ⟨⟨t, ht, rfl⟩, hproxy⟩, t.batch, ⟨⟨t, ht, rfl, rfl⟩, hstale⟩, rfl, rfl⟩

theorem mem_nodesIn_completed_iff :
    id ∈ nodesIn nodes tasks .completed ↔ Completed nodes tasks id := by
  unfold nodesIn
  rw [List.mem_filter, mem_taskNodes_iff hnodes, beq_iff_eq, stateOf_eq_completed_iff hnodes]
  constructor
  · rintro ⟨⟨-, hproxy⟩, hsettled⟩
    exact ⟨hproxy, hsettled⟩
  · rintro ⟨hproxy, t, ht, hnode, hsettled⟩
    exact ⟨⟨⟨t, ht, hnode⟩, hproxy⟩, t, ht, hnode, hsettled⟩

theorem mem_nodesIn_active_iff :
    id ∈ nodesIn nodes tasks .active ↔ Active nodes tasks id := by
  unfold nodesIn
  rw [List.mem_filter, mem_taskNodes_iff hnodes, beq_iff_eq, stateOf_eq_active_iff hnodes]
  constructor
  · rintro ⟨⟨-, hproxy⟩, hunsettled, hpending⟩
    exact ⟨hproxy, fun h => hunsettled h.2, hpending⟩
  · rintro ⟨hproxy, hunsettled, t, ht, hnode, hpending⟩
    exact ⟨⟨⟨t, ht, hnode⟩, hproxy⟩, fun h => hunsettled ⟨hproxy, h⟩, t, ht, hnode, hpending⟩

theorem mem_completed_iff :
    id ∈ (ofTasks nodes tasks).completed.keys ↔ Completed nodes tasks id :=
  SortedSet.mem_keys_ofList_iff.trans (mem_nodesIn_completed_iff hnodes)

theorem mem_active_iff : id ∈ (ofTasks nodes tasks).active.keys ↔ Active nodes tasks id :=
  SortedSet.mem_keys_ofList_iff.trans (mem_nodesIn_active_iff hnodes)

end

/-! ## Links -/

/-- The nodes strictly inside a path. -/
def inside (path : List String) : List String := path.tail.dropLast

/-- A node with others before and behind it is inside. -/
theorem mem_inside {before after : List String} (hbefore : before ≠ []) (hafter : after ≠ []) :
    id ∈ inside (before ++ id :: after) := by
  unfold inside
  rw [List.tail_append_of_ne_nil hbefore, List.dropLast_append_of_ne_nil (List.cons_ne_nil id after),
    List.dropLast_cons_of_ne_nil hafter]
  exact List.mem_append_right _ List.mem_cons_self

/-- The links of a path are those from one of its ids to the next. -/
theorem mem_linksOf_iff {e : Link} : e ∈ linksOf path ↔ [e.source, e.target] <:+: path := by
  obtain ⟨source, target⟩ := e
  unfold linksOf
  induction path with
  | nil => simp
  | cons a path ih =>
    cases path with
    | nil => simp [List.infix_cons_iff]
    | cons b rest =>
      rw [List.infix_cons_iff, ← ih]
      simp [eq_comm]

/-- Does the instance show that it went along a link? The link is on the path from a completed node
to another one that is completed or active, and no id inside the path has a task. -/
def GoneAlong (nodes : List ProcessNode) (tasks : List Task) (e : Link) : Prop :=
  ∃ c r, Completed nodes tasks c ∧ (Completed nodes tasks r ∨ Active nodes tasks r) ∧ c ≠ r ∧
    (∀ id ∈ inside ((Topology.ofNodes nodes).findPath c r), ¬ HasTask tasks id) ∧
    [e.source, e.target] <:+: (Topology.ofNodes nodes).findPath c r

theorem isClear_iff {withTask : List String} :
    isClear withTask path = true ↔ ∀ id ∈ inside path, id ∉ withTask := by
  unfold isClear inside
  simp only [List.all_eq_true, Bool.not_eq_true', ← Bool.not_eq_true, List.contains_iff_mem]

/-- The links between nodes that were reached. -/
theorem mem_traversedLinks_iff {t : Topology} {completed reached : List String} {e : Link} :
    e ∈ traversedLinks t tasks completed reached ↔
      ∃ c ∈ completed, ∃ r ∈ reached, c ≠ r ∧
        (∀ id ∈ inside (t.findPath c r), ¬ HasTask tasks id) ∧
        [e.source, e.target] <:+: t.findPath c r := by
  unfold traversedLinks HasTask
  simp only [List.mem_flatMap]
  refine exists_congr fun c => and_congr_right fun _ => exists_congr fun r =>
    and_congr_right fun _ => ?_
  by_cases hsame : c = r
  · rw [if_pos hsame]
    exact iff_of_false List.not_mem_nil fun h => h.1 hsame
  · rw [if_neg hsame, and_iff_right hsame]
    simp only [List.mem_ite_nil_right, isClear_iff, mem_linksOf_iff, List.mem_map]

section

variable (hnodes : (nodes.map (·.id)).Nodup)

include hnodes

theorem mem_traversed_iff {e : Link} :
    e ∈ (ofTasks nodes tasks).traversed.keys ↔ GoneAlong nodes tasks e := by
  have hlinks : e ∈ (ofTasks nodes tasks).traversed.keys ↔
      e ∈ traversedLinks (.ofNodes nodes) tasks (nodesIn nodes tasks .completed)
        (nodesIn nodes tasks .completed ++ nodesIn nodes tasks .active) :=
    SortedSet.mem_keys_ofList_iff
  rw [hlinks, mem_traversedLinks_iff]
  unfold GoneAlong
  simp only [List.mem_append, mem_nodesIn_completed_iff hnodes, mem_nodesIn_active_iff hnodes,
    exists_and_left]

end

/-! ## The ends of a link -/

/-- The ends of a link on a path are the ends of the path, or inside it. -/
theorem ends_of_infix {t : Topology} {c r a b : String} (hpath : t.IsPath c r path)
    (hlink : [a, b] <:+: path) : (a = c ∨ a ∈ inside path) ∧ (b = r ∨ b ∈ inside path) := by
  obtain ⟨before, after, rfl⟩ := hlink
  have hbegins := hpath.begins
  have hends := hpath.ends
  rw [List.append_assoc] at hbegins hends ⊢
  constructor
  · cases before with
    | nil => exact .inl (Option.some.inj hbegins)
    | cons x before => exact .inr (mem_inside (List.cons_ne_nil x before) (List.cons_ne_nil b after))
  · have hsplit : before ++ ([a, b] ++ after) = (before ++ [a]) ++ b :: after := by simp
    rw [hsplit] at hends ⊢
    cases after with
    | nil =>
      rw [List.getLast?_append, List.getLast?_singleton] at hends
      exact .inl (Option.some.inj hends)
    | cons y after => exact .inr (mem_inside (by simp) (List.cons_ne_nil y after))

/-- **Whatever was gone along is a link of the topology**, from a completed node or one without a
task to one that was reached or has no task. -/
theorem GoneAlong.linked {e : Link} (h : GoneAlong nodes tasks e) :
    e.target ∈ (Topology.ofNodes nodes).next e.source ∧
      (Completed nodes tasks e.source ∨ ¬ HasTask tasks e.source) ∧
      (Completed nodes tasks e.target ∨ Active nodes tasks e.target ∨ ¬ HasTask tasks e.target) := by
  obtain ⟨c, r, hc, hr, -, hclear, hlink⟩ := h
  have hfound : (Topology.ofNodes nodes).findPath c r ≠ [] := by
    intro hnil
    rw [hnil, List.infix_nil] at hlink
    cases hlink
  have hpath := (Topology.isShortest_of_findPath_ne_nil hfound).toIsPath
  obtain ⟨hsource, htarget⟩ := ends_of_infix hpath hlink
  have hlinked := List.IsChain.infix hpath.linked hlink
  refine ⟨List.isChain_pair.mp hlinked, ?_, ?_⟩
  · rcases hsource with heq | hinside
    · exact .inl (heq ▸ hc)
    · exact .inr (hclear _ hinside)
  · rcases htarget with heq | hinside
    · rcases hr with hr | hr
      · exact .inl (heq ▸ hr)
      · exact .inr (.inl (heq ▸ hr))
    · exact .inr (.inr (hclear _ hinside))

/-- A link from a completed node to another one that was reached was gone along. -/
theorem goneAlong_of_linked {c r : String} (hc : Completed nodes tasks c)
    (hr : Completed nodes tasks r ∨ Active nodes tasks r) (hne : c ≠ r)
    (hlink : r ∈ (Topology.ofNodes nodes).next c)
    (hlisted : (Topology.ofNodes nodes).successors.contains r = true) :
    GoneAlong nodes tasks ⟨c, r⟩ := by
  have hpath := Topology.findPath_of_linked hlink hlisted hne
  refine ⟨c, r, hc, hr, hne, ?_, ?_⟩
  · rw [hpath]
    exact nofun
  · exact hpath.symm ▸ List.infix_rfl

/-! ## The whole of it -/

/-- **Progress shows what the tasks say.** A batch with a task, not at a proxy, is stale iff a task
of another batch of the node is pending or the system passed a task of it. A node is completed iff a
task of a batch that is not stale settles it, and active iff it is not completed and a task of such
a batch is pending. The links gone along are those on paths from completed nodes to others that are
completed or active, with no task inside. So each is a link of the topology, from a node that is
completed or has no task to one that is completed, active or has no task. -/
theorem ofTasks_shows (hnodes : (nodes.map (·.id)).Nodup) (tasks : List Task) :
    (∀ node batch, ⟨node, batch⟩ ∈ (ofTasks nodes tasks).stale.keys ↔
        ¬ IsProxyId nodes node ∧ (∃ t ∈ tasks, t.nodeId = node ∧ t.batch = batch) ∧
          Stale tasks node batch) ∧
      (∀ id, id ∈ (ofTasks nodes tasks).completed.keys ↔ Completed nodes tasks id) ∧
      (∀ id, id ∈ (ofTasks nodes tasks).active.keys ↔ Active nodes tasks id) ∧
      (∀ e, e ∈ (ofTasks nodes tasks).traversed.keys ↔ GoneAlong nodes tasks e) ∧
      ∀ e ∈ (ofTasks nodes tasks).traversed.keys,
        e.target ∈ (Topology.ofNodes nodes).next e.source ∧
          (Completed nodes tasks e.source ∨ ¬ HasTask tasks e.source) ∧
          (Completed nodes tasks e.target ∨ Active nodes tasks e.target ∨
            ¬ HasTask tasks e.target) :=
  ⟨fun _ _ => mem_stale_iff hnodes, fun _ => mem_completed_iff hnodes,
    fun _ => mem_active_iff hnodes, fun _ => mem_traversed_iff hnodes,
    fun _ he => ((mem_traversed_iff hnodes).mp he).linked⟩

/-- One step before two others, of which the first is for two people to agree on. -/
def fork : List ProcessNode :=
  [{ id := "U", name := "U", type := .approval },
    { id := "V", name := "V", type := .approval, predecessorIds := ["U"], cosigned := true },
    { id := "W", name := "W", type := .approval, predecessorIds := ["U"] }]

/-- One of the two agreed, the system closed the other branch, and a task is at no known node. -/
def forkTasks : List Task :=
  [⟨"t1", "inst-1", "U", "b1", "ann", .passed, true, false, ""⟩,
    ⟨"t2", "inst-1", "V", "b1", "bob", .passed, true, false, ""⟩,
    ⟨"t3", "inst-1", "V", "b1", "cem", .pending, false, false, ""⟩,
    ⟨"t4", "inst-1", "W", "b1", "dan", .systemPassed, true, false, ""⟩,
    ⟨"t5", "inst-1", "ghost", "b1", "eve", .pending, false, false, ""⟩]

/-- The first step is completed, the one for two people is active, and the instance went along the
link between them. -/
theorem ofTasks_shows_fork :
    "U" ∈ (ofTasks fork forkTasks).completed.keys ∧
      "V" ∈ (ofTasks fork forkTasks).active.keys ∧ "ghost" ∈ (ofTasks fork forkTasks).active.keys ∧
      ⟨"W", "b1"⟩ ∈ (ofTasks fork forkTasks).stale.keys ∧
      ⟨"U", "V"⟩ ∈ (ofTasks fork forkTasks).traversed.keys := by
  have hnodes : (fork.map (·.id)).Nodup := by decide
  obtain ⟨hstale, hcompleted, hactive, htraversed, -⟩ := ofTasks_shows hnodes forkTasks
  have hfirst : (NodeTable.ofList fork).find? "U" = fork[0]? :=
    (NodeTable.find?_ofList_iff hnodes).mpr ⟨by decide, rfl⟩
  have hlink : "V" ∈ (Topology.ofNodes fork).next "U" := by
    rw [Topology.next_ofNodes hnodes, List.mem_map]
    refine ⟨_, List.mem_filter.mpr ⟨List.getElem_mem (n := 1) (by decide), ?_⟩, rfl⟩
    have hsources : Topology.sources (.ofList fork) fork[1] = ["U"] := by
      show ["U"].flatMap _ = _
      simp [Topology.businessSources_of_business hfirst rfl]
    rw [hsources]
    decide
  have hlisted : (Topology.ofNodes fork).successors.contains "V" = true :=
    Topology.contains_ofNodes_iff.mpr ⟨fork[1], by decide, rfl, .inl rfl⟩
  have hgone : GoneAlong fork forkTasks ⟨"U", "V"⟩ :=
    goneAlong_of_linked (by decide) (.inr (by decide)) (by decide) hlink hlisted
  exact ⟨(hcompleted "U").mpr (by decide), (hactive "V").mpr (by decide),
    (hactive "ghost").mpr (by decide), (hstale "W" "b1").mpr (by decide), (htraversed _).mpr hgone⟩

end ApprovalFlow.Progress
