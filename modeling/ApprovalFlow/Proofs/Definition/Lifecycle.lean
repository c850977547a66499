import ApprovalFlow.Proofs.Definition.Subscriptions
import ApprovalFlow.Proofs.Dispatch.Commands

/-!
# The course of a node

A compiled node subscribes to events that tell when it starts and when it ends. They are written
into the definition as texts, by each way of lowering on its own, and the dispatcher answers them in
two tables of its own. An event that the wrong table is asked for is dropped without a word, and a
node with two events at which a task begins would have its task passed twice. What is written was
brought into lists of events; here the tables are asked about the members of these.

- `decideNodeStarted_eq`: **the start of a node is answered by handing it on, behind the run for a
  node of the system's.**
- `ProcessNode.Hears.spawned_starts`: the runs that the events of a start begin, one after the other.
- `ProcessNode.Served`, `Diagram.course_served`: **over the course of a node each of its events is
  handed on once, and the system passes its task once.**
-/

namespace ApprovalFlow

/-! ## What is answered -/

namespace Command

/-- The event that the command hands on. -/
def forwarded? : Command → Option HookEvent
  | .forward h => some h
  | .closeBranch .. | .finishPending .. | .spawnAutoPass _ => none

/-- The node that the command starts a run for. -/
def spawned? : Command → Option String
  | .spawnAutoPass node => some node
  | .closeBranch .. | .finishPending .. | .forward _ => none

end Command

section

variable {s : Snapshot} {o : DispatchOptions} {e : EventName} {inst : String} {n : ProcessNode}

/-- **The start of a node is handed on, behind the run for a node of the system's.** -/
theorem decideNodeStarted_eq (hn : s.nodes.find? n.id = some n) (he : e.isStart = true) :
    decideNodeStarted inst n.id e s =
      (if e.beginsTasks && n.isSystemAuto then [.spawnAutoPass n.id] else [])
        ++ [.forward ⟨e, inst, n.id, none⟩] := by
  unfold decideNodeStarted
  rw [hn, Option.map_some, Option.getD_some]
  cases e with
  | taskNodeStart | automationStart => cases n.isSystemAuto <;> rfl
  | notify | notifyCC | processEnd => rfl
  | _ => cases he

theorem forwarded_nodeStarted (hn : s.nodes.find? n.id = some n) (he : e.isStart = true) :
    (commandsFor (.nodeStarted inst n.id e) s o).filterMap Command.forwarded? =
      [⟨e, inst, n.id, none⟩] := by
  show (decideNodeStarted inst n.id e s).filterMap Command.forwarded? = _
  rw [decideNodeStarted_eq hn he]
  cases e.beginsTasks && n.isSystemAuto <;> rfl

theorem spawned_nodeStarted (hn : s.nodes.find? n.id = some n) (he : e.isStart = true) :
    (commandsFor (.nodeStarted inst n.id e) s o).filterMap Command.spawned? =
      if e.beginsTasks && n.isSystemAuto then [n.id] else [] := by
  show (decideNodeStarted inst n.id e s).filterMap Command.spawned? = _
  rw [decideNodeStarted_eq hn he]
  cases e.beginsTasks && n.isSystemAuto <;> rfl

end

/-! ## What is written is answered -/

namespace ProcessNode

/-- Is what a node subscribes to answered, over its whole course in an instance? -/
structure Served (n : ProcessNode) (s : Snapshot) (inst : String) (o : DispatchOptions) : Prop where
  /-- What is written are texts of events. -/
  known : ∀ x, x ∈ n.taskFinishEvents ∨ x ∈ n.nodeStartEvents ∨ x ∈ n.nodeEndEvents →
    ∃ e, EventName.ofText? x = some e ∧ e.text = x
  /-- No event of the start is asked for twice, and each is handed on once. -/
  distinct : n.nodeStartEvents.Nodup
  started : ∀ e : EventName, e.text ∈ n.nodeStartEvents →
    (commandsFor (.nodeStarted inst n.id e) s o).filterMap Command.forwarded? =
      [⟨e, inst, n.id, none⟩]
  /-- All of them together start one run if the node is one of the system's, and else none. -/
  begun : ((n.nodeStartEvents.filterMap EventName.ofText?).flatMap fun e =>
      commandsFor (.nodeStarted inst n.id e) s o).filterMap Command.spawned? =
    if n.isSystemAuto then [n.id] else []
  /-- An event of the end is handed on and nothing else is done. -/
  ended : ∀ e : EventName, e.text ∈ n.nodeEndEvents →
    commandsFor (.nodeEnded inst n.id e) s o = [.forward ⟨e, inst, n.id, none⟩]

variable {n : ProcessNode} {finishes starts ends : List EventName}

/-- The events can be read off the texts. -/
theorem Hears.filterMap_nodeStartEvents (h : n.Hears finishes starts ends) :
    n.nodeStartEvents.filterMap EventName.ofText? = starts := by
  rw [h.nodeStartEvents, List.filterMap_map]
  exact (List.filterMap_congr fun e _ => EventName.ofText?_text e).trans List.filterMap_some

/-- The runs that the events of a start begin, one after the other. -/
theorem Hears.spawned_starts (h : n.Hears finishes starts ends) {s : Snapshot}
    (hn : s.nodes.find? n.id = some n) (inst : String) (o : DispatchOptions) :
    (starts.flatMap fun e => commandsFor (.nodeStarted inst n.id e) s o).filterMap
        Command.spawned? =
      (starts.filter fun e => e.beginsTasks && n.isSystemAuto).map fun _ => n.id := by
  have hstarts := h.isStart
  clear h
  induction starts with
  | nil => rfl
  | cons e rest ih =>
    rw [List.flatMap_cons, List.filterMap_append,
      spawned_nodeStarted hn (hstarts e List.mem_cons_self),
      ih fun e' he' => hstarts e' (List.mem_cons_of_mem _ he'), List.filter_cons]
    cases e.beginsTasks && n.isSystemAuto <;> rfl

/-- **A node is served if it hears only what is answered**, wherever the dispatcher finds it. -/
theorem Hears.served (h : n.Hears finishes starts ends) {s : Snapshot}
    (hn : s.nodes.find? n.id = some n) (inst : String) (o : DispatchOptions) :
    n.Served s inst o where
  known x hx := by
    obtain ⟨e, rfl⟩ : ∃ e : EventName, e.text = x := by
      rw [h.taskFinishEvents, h.nodeStartEvents, h.nodeEndEvents] at hx
      rcases hx with hx | hx | hx <;>
        · obtain ⟨e, -, he⟩ := List.mem_map.mp hx
          exact ⟨e, he⟩
    exact ⟨e, EventName.ofText?_text e, rfl⟩
  distinct := by
    rw [h.nodeStartEvents]
    exact h.distinct.map EventName.text_injective
  started e he := by
    rw [h.nodeStartEvents, EventName.mem_texts_iff] at he
    exact forwarded_nodeStarted hn (h.isStart e he)
  begun := by
    rw [h.filterMap_nodeStartEvents, h.spawned_starts hn]
    cases hauto : n.isSystemAuto with
    | false => simp
    | true =>
      obtain ⟨e, he⟩ := h.beginsOnce hauto
      simp [he]
  ended e he := by
    rw [h.nodeEndEvents, EventName.mem_texts_iff] at he
    obtain rfl := h.isEnd e he
    rfl

end ProcessNode

namespace Diagram

variable {options : CompilerOptions} {name : String} {d : Diagram} {p : ProcessDefinition}

/-- **Over the course of a compiled node every event that it subscribes to is answered**: each is
handed on once, and the system passes its task once. -/
theorem course_served (hd : d.Unambiguous) (hc : d.compile options name = .ok p) :
    ∀ m ∈ p.nodes, ∀ tasks inst o, m.Served (.ofParts p.table tasks) inst o := by
  intro m hm tasks inst o
  obtain ⟨finishes, starts, ends, hhears⟩ : ∃ finishes starts ends, m.Hears finishes starts ends := by
    rcases (hd.mem_nodes_iff hc).mp hm with ⟨n, -, hl⟩ | ⟨n, -, q, -, rfl⟩
    · obtain ⟨finishes, starts, ends, hhears, -⟩ := Blueprint.exists_hears hl
      exact ⟨finishes, starts, ends, hhears⟩
    · exact exists_hears_proxyNode q n.id n.kind
  have hfind : p.table.find? m.id = some m :=
    (NodeTable.find?_ofList_iff (hd.nodup_ids hc)).mpr ⟨hm, rfl⟩
  exact hhears.served hfind inst o

/-- A diagram with proxies, a step of people and an automation step. -/
theorem course_served_chained :
    ∃ p, chained.compile {} "chained" = .ok p ∧
      ∀ m ∈ p.nodes, ∀ tasks inst o, m.Served (.ofParts p.table tasks) inst o := by
  have hd : chained.Unambiguous := by decide
  obtain ⟨p, hp⟩ : ∃ p, chained.compile {} "chained" = .ok p := ⟨_, rfl⟩
  exact ⟨p, hp, course_served hd hp⟩

end Diagram

end ApprovalFlow
