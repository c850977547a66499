import ApprovalFlow.Diagram.Basic
import ApprovalFlow.Proofs.Json.Record
import Mathlib.Data.List.Forall2

/-!
# Nodes of no known kind

A diagram drawn in a newer editor may have nodes that are not known here. One policy refuses it, the
other leaves these nodes out with every edge at an id of theirs. Nothing of what is left out is looked
at, so the second policy is the first one on a smaller diagram. Under the first policy, reading is a
walk over the nodes and then over the edges that ends at the first fault.

- `mapM_eq_ok_iff`, `mapM_eq_error_iff`: **a walk over a list succeeds with a result for each item,
  or fails with the first fault.**
- `RawNode.Denotes`, `RawNode.Fault`, `RawEdge.Denotes`, `RawEdge.Fault`: what an item is read as, and
  why it is not read.
- `Diagram.readNodes_reject`, `Diagram.readEdges_nil`: reading all is such a walk.
- `RawDiagram.known`: the diagram without what is left out.
- `Diagram.readNodes_skip`, `Diagram.readEdges_eq`: **to leave something out is to read a smaller
  list.**
- `Diagram.skipping_reads_known`: both policies, for every stored diagram.
-/

namespace ApprovalFlow

/-! ## Walks that end at the first fault -/

section

variable {ε α β : Type} {f : α → Except ε β} {l : List α} {e : ε}

/-- Is this the fault of the first item that has one? -/
def IsFirstFault (Fault : α → ε → Prop) (l : List α) (e : ε) : Prop :=
  ∃ before a after, l = before ++ a :: after ∧ (∀ b ∈ before, ∀ e', ¬ Fault b e') ∧ Fault a e

theorem not_isFirstFault_nil {Fault : α → ε → Prop} : ¬ IsFirstFault Fault [] e := by
  rintro ⟨before, a, after, h, -⟩
  cases before <;> cases h

/-- The first fault is that of the first item, or of the others if the first item has none. -/
theorem isFirstFault_cons_iff {Fault : α → ε → Prop} {a : α} :
    IsFirstFault Fault (a :: l) e ↔ Fault a e ∨ (∀ e', ¬ Fault a e') ∧ IsFirstFault Fault l e := by
  constructor
  · rintro ⟨before, b, after, h, hbefore, hb⟩
    cases before with
    | nil =>
      cases h
      exact .inl hb
    | cons c before =>
      cases h
      exact .inr ⟨hbefore a List.mem_cons_self, before, b, after, rfl,
        fun x hx => hbefore x (List.mem_cons_of_mem a hx), hb⟩
  · rintro (ha | ⟨ha, before, b, after, rfl, hbefore, hb⟩)
    · exact ⟨[], a, l, rfl, nofun, ha⟩
    · exact ⟨a :: before, b, after, rfl, List.forall_mem_cons.mpr ⟨ha, hbefore⟩, hb⟩

/-- Some item has a fault just if there is a first one. -/
theorem exists_isFirstFault_iff {Fault : α → ε → Prop} :
    (∃ e, IsFirstFault Fault l e) ↔ ∃ a ∈ l, ∃ e, Fault a e := by
  induction l with
  | nil => exact ⟨fun ⟨_, h⟩ => absurd h not_isFirstFault_nil, nofun⟩
  | cons a rest ih =>
    simp only [isFirstFault_cons_iff, List.exists_mem_cons_iff, exists_or, exists_and_left, ih]
    by_cases ha : ∃ e, Fault a e
    · exact iff_of_true (.inl ha) (.inl ha)
    · simp only [not_exists.mp ha, not_false_eq_true, implies_true, true_and]

theorem mapM_cons_of_ok {a : α} {b : β} (h : f a = .ok b) :
    (a :: l).mapM f = (l.mapM f).map (b :: ·) := by
  rw [List.mapM_cons, h]
  cases l.mapM f <;> rfl

theorem mapM_cons_of_error {a : α} (h : f a = .error e) : (a :: l).mapM f = .error e := by
  rw [List.mapM_cons, h]
  rfl

/-- **A walk succeeds with the results of the items**, one for each, in their order. -/
theorem mapM_eq_ok_iff {r : List β} :
    l.mapM f = .ok r ↔ List.Forall₂ (fun a b => f a = .ok b) l r := by
  induction l generalizing r with
  | nil => exact ⟨fun h => by cases h; exact .nil, fun h => by cases h; rfl⟩
  | cons a rest ih =>
    rw [List.forall₂_cons_left_iff]
    cases hf : f a with
    | error e =>
      rw [mapM_cons_of_error hf]
      exact ⟨nofun, fun ⟨_, _, h, _⟩ => nomatch h⟩
    | ok b =>
      rw [mapM_cons_of_ok hf, Json.map_eq_ok_iff]
      simp only [ih, Except.ok.injEq, exists_and_left, exists_eq_left', eq_comm]

/-- **A walk fails with the first fault.** -/
theorem mapM_eq_error_iff :
    l.mapM f = .error e ↔ IsFirstFault (fun a e => f a = .error e) l e := by
  induction l with
  | nil => exact ⟨nofun, fun h => absurd h not_isFirstFault_nil⟩
  | cons a rest ih =>
    rw [isFirstFault_cons_iff, ← ih]
    cases hf : f a with
    | error e' =>
      rw [mapM_cons_of_error hf, Except.error.injEq, Except.error.injEq]
      exact ⟨.inl, fun h => h.resolve_right fun hnone => hnone.1 e' rfl⟩
    | ok b =>
      rw [mapM_cons_of_ok hf]
      cases rest.mapM f with
      | error e' => simp [Except.map]
      | ok r => simp [Except.map]

end

/-! ## Items -/

/-- Is the written kind of the node one that is known? -/
def RawNode.IsKnown (r : RawNode) : Prop := ∃ kind : NodeKind, kind.name = r.type

/-- The node is read as one with its id, the kind of its written name and the properties of its
bag. -/
structure RawNode.Denotes (r : RawNode) (n : DiagramNode) : Prop where
  id : n.id = r.id
  kind : n.kind.name = r.type
  properties : NodeProperties.ofBag r.id n.kind r.properties = .ok n.properties

/-- Why a node is not read: its kind is not known, or its bag does not fit the kind. -/
inductive RawNode.Fault (r : RawNode) : FlowError → Prop
  | kind (h : ¬ r.IsKnown) : Fault r (.unknownNodeType r.id r.type)
  | bag {kind : NodeKind} {e : FlowError} (hkind : kind.name = r.type)
      (h : NodeProperties.ofBag r.id kind r.properties = .error e) : Fault r e

/-- The edge is read as one with its id and ends, and with the properties of its bag. -/
structure RawEdge.Denotes (r : RawEdge) (e : DiagramEdge) : Prop where
  id : e.id = r.id
  source : e.source = r.source
  target : e.target = r.target
  properties : EdgeProperties.ofBag r.id r.properties = .ok e.properties

/-- Why an edge is not read: its bag does not fit. -/
def RawEdge.Fault (r : RawEdge) (e : FlowError) : Prop :=
  EdgeProperties.ofBag r.id r.properties = .error e

/-- A name is looked up among those of all kinds. -/
theorem NodeKind.ofName?_eq_some_iff {s : String} {kind : NodeKind} :
    ofName? s = some kind ↔ kind.name = s := by
  constructor
  · intro h
    simpa using List.find?_some h
  · rintro rfl
    cases kind <;> decide

theorem RawNode.ofName?_eq_none_iff {r : RawNode} :
    NodeKind.ofName? r.type = none ↔ ¬ r.IsKnown := by
  unfold IsKnown
  simp only [← NodeKind.ofName?_eq_some_iff, ← Option.ne_none_iff_exists', not_not]

instance : DecidablePred RawNode.IsKnown := fun r =>
  decidable_of_iff ((NodeKind.ofName? r.type).isSome = true) (by
    rw [Option.isSome_iff_exists]
    exact exists_congr fun _ => NodeKind.ofName?_eq_some_iff)

namespace RawNode

variable {r : RawNode} {n : DiagramNode} {e : FlowError}

/-- The node that a stored one denotes. -/
def read (r : RawNode) : Except FlowError DiagramNode :=
  match NodeKind.ofName? r.type with
  | none => .error (.unknownNodeType r.id r.type)
  | some kind => (NodeProperties.ofBag r.id kind r.properties).map (⟨r.id, kind, ·⟩)

theorem read_of_kind {kind : NodeKind} (h : kind.name = r.type) :
    r.read = (NodeProperties.ofBag r.id kind r.properties).map (⟨r.id, kind, ·⟩) := by
  unfold read
  rw [NodeKind.ofName?_eq_some_iff.mpr h]

theorem read_of_not_isKnown (h : ¬ r.IsKnown) : r.read = .error (.unknownNodeType r.id r.type) := by
  unfold read
  rw [ofName?_eq_none_iff.mpr h]

theorem read_eq_ok_iff : r.read = .ok n ↔ r.Denotes n := by
  constructor
  · intro h
    by_cases hknown : r.IsKnown
    · obtain ⟨kind, hkind⟩ := hknown
      rw [read_of_kind hkind, Json.map_eq_ok_iff] at h
      obtain ⟨p, hp, rfl⟩ := h
      exact ⟨rfl, hkind, hp⟩
    · rw [read_of_not_isKnown hknown] at h
      cases h
  · obtain ⟨id, kind, properties⟩ := n
    rintro ⟨hid, hkind, hp⟩
    cases hid
    rw [read_of_kind hkind]
    exact Json.map_eq_ok_iff.mpr ⟨properties, hp, rfl⟩

theorem read_eq_error_iff : r.read = .error e ↔ r.Fault e := by
  constructor
  · intro h
    by_cases hknown : r.IsKnown
    · obtain ⟨kind, hkind⟩ := hknown
      rw [read_of_kind hkind] at h
      cases hbag : NodeProperties.ofBag r.id kind r.properties with
      | error e' =>
        rw [hbag] at h
        cases h
        exact .bag hkind hbag
      | ok p =>
        rw [hbag] at h
        cases h
    · rw [read_of_not_isKnown hknown] at h
      cases h
      exact .kind hknown
  · rintro (h | ⟨hkind, hbag⟩)
    · exact read_of_not_isKnown h
    · rw [read_of_kind hkind, hbag]
      rfl

end RawNode

/-- The edge that a stored one denotes. -/
def RawEdge.read (r : RawEdge) : Except FlowError DiagramEdge :=
  (EdgeProperties.ofBag r.id r.properties).map (⟨r.id, r.source, r.target, ·⟩)

theorem RawEdge.read_eq_ok_iff {r : RawEdge} {e : DiagramEdge} :
    r.read = .ok e ↔ r.Denotes e := by
  obtain ⟨id, source, target, properties⟩ := e
  unfold read
  rw [Json.map_eq_ok_iff]
  constructor
  · rintro ⟨p, hp, heq⟩
    cases heq
    exact ⟨rfl, rfl, rfl, hp⟩
  · rintro ⟨hid, hsource, htarget, hp⟩
    cases hid
    cases hsource
    cases htarget
    exact ⟨properties, hp, rfl⟩

theorem RawEdge.read_eq_error_iff {r : RawEdge} {e : FlowError} :
    r.read = .error e ↔ r.Fault e := by
  unfold read Fault
  cases EdgeProperties.ofBag r.id r.properties with
  | error e' => simp [Except.map]
  | ok p => simp [Except.map]

/-! ## What is left out -/

namespace RawDiagram

/-- The ids of the nodes of no known kind. -/
def unknownIds (raw : RawDiagram) : List String := (raw.nodes.filter (¬ ·.IsKnown)).map (·.id)

/-- The diagram without its nodes of no known kind, and without every edge that begins or ends at an
id of theirs. -/
def known (raw : RawDiagram) : RawDiagram where
  nodes := raw.nodes.filter (·.IsKnown)
  edges := raw.edges.filter fun e => e.source ∉ raw.unknownIds ∧ e.target ∉ raw.unknownIds

end RawDiagram

namespace Diagram

variable {raw : RawDiagram} {d : Diagram} {e : FlowError}

/-! ## Reading all items -/

/-- A node of a known kind is read, or its fault ends the reading. -/
theorem readNodes_cons_of_isKnown (policy : UnknownNodePolicy) {r : RawNode} (h : r.IsKnown)
    (rest : List RawNode) :
    readNodes policy (r :: rest) = r.read.bind fun n =>
      (readNodes policy rest).map fun x => (n :: x.1, x.2) := by
  obtain ⟨kind, hkind⟩ := h
  rw [RawNode.read_of_kind hkind, readNodes.eq_def]
  dsimp only
  rw [NodeKind.ofName?_eq_some_iff.mpr hkind]
  dsimp only
  cases NodeProperties.ofBag r.id kind r.properties <;> rfl

/-- A node of no known kind ends the reading under the one policy. -/
theorem readNodes_reject_cons {r : RawNode} (h : ¬ r.IsKnown) (rest : List RawNode) :
    readNodes .reject (r :: rest) = .error (.unknownNodeType r.id r.type) := by
  rw [readNodes.eq_def]
  dsimp only
  rw [RawNode.ofName?_eq_none_iff.mpr h]

/-- Under the other it is left out, and its id is told. -/
theorem readNodes_skip_cons {r : RawNode} (h : ¬ r.IsKnown) (rest : List RawNode) :
    readNodes .skip (r :: rest) = (readNodes .skip rest).map fun x => (x.1, r.id :: x.2) := by
  rw [readNodes.eq_def]
  dsimp only
  rw [RawNode.ofName?_eq_none_iff.mpr h]

/-- If nodes of no known kind are refused, reading the nodes is a walk that leaves none out. -/
theorem readNodes_reject (nodes : List RawNode) :
    readNodes .reject nodes = (nodes.mapM RawNode.read).map (·, []) := by
  induction nodes with
  | nil => rfl
  | cons r rest ih =>
    by_cases hknown : r.IsKnown
    · rw [readNodes_cons_of_isKnown .reject hknown, ih]
      cases hread : r.read with
      | error e =>
        rw [mapM_cons_of_error hread]
        rfl
      | ok n =>
        rw [mapM_cons_of_ok hread]
        cases rest.mapM RawNode.read <;> rfl
    · rw [readNodes_reject_cons hknown,
        mapM_cons_of_error (RawNode.read_of_not_isKnown hknown)]
      rfl

/-- If no id is left out, so is reading the edges. -/
theorem readEdges_nil (edges : List RawEdge) : readEdges [] edges = edges.mapM RawEdge.read := by
  induction edges with
  | nil => rfl
  | cons r rest ih =>
    rw [readEdges, if_neg (by simp), ih]
    cases hread : r.read with
    | error e =>
      rw [mapM_cons_of_error hread, RawEdge.read_eq_error_iff.mp hread]
    | ok d =>
      obtain ⟨id, source, target, p⟩ := d
      obtain ⟨rfl, rfl, rfl, hbag⟩ := RawEdge.read_eq_ok_iff.mp hread
      rw [mapM_cons_of_ok hread, hbag]

/-- **To leave out the nodes of no known kind is to read the others**, and to tell the ids of
these. -/
theorem readNodes_skip (nodes : List RawNode) :
    readNodes .skip nodes = (readNodes .reject (nodes.filter (·.IsKnown))).map fun x =>
      (x.1, (nodes.filter (¬ ·.IsKnown)).map (·.id)) := by
  induction nodes with
  | nil => rfl
  | cons r rest ih =>
    by_cases hknown : r.IsKnown
    · have hread : (r :: rest).filter (·.IsKnown) = r :: rest.filter (·.IsKnown) :=
        List.filter_cons_of_pos (decide_eq_true hknown)
      have hleft : (r :: rest).filter (¬ ·.IsKnown) = rest.filter (¬ ·.IsKnown) :=
        List.filter_cons_of_neg (by simpa)
      rw [hread, hleft, readNodes_cons_of_isKnown .skip hknown,
        readNodes_cons_of_isKnown .reject hknown, ih]
      cases r.read with
      | error e => rfl
      | ok n => cases readNodes .reject (rest.filter (·.IsKnown)) <;> rfl
    · have hread : (r :: rest).filter (·.IsKnown) = rest.filter (·.IsKnown) :=
        List.filter_cons_of_neg (by simpa)
      have hleft : (r :: rest).filter (¬ ·.IsKnown) = r :: rest.filter (¬ ·.IsKnown) :=
        List.filter_cons_of_pos (decide_eq_true hknown)
      rw [hread, hleft, readNodes_skip_cons hknown, ih]
      cases readNodes .reject (rest.filter (·.IsKnown)) <;> rfl

/-- **To leave out the edges at some ids is to read the others.** -/
theorem readEdges_eq (skipped : List String) (edges : List RawEdge) :
    readEdges skipped edges =
      readEdges [] (edges.filter fun e => e.source ∉ skipped ∧ e.target ∉ skipped) := by
  induction edges with
  | nil => rfl
  | cons r rest ih =>
    rw [readEdges]
    by_cases hapart : r.source ∉ skipped ∧ r.target ∉ skipped
    · rw [if_neg (by simpa using hapart), List.filter_cons_of_pos (by simpa using hapart),
        readEdges, if_neg (by simp), ih]
    · rw [if_pos (by simpa [imp_iff_not_or] using hapart),
        List.filter_cons_of_neg (by simpa using hapart), ih]

/-! ## Diagrams -/

/-- Skipping what is unknown is to refuse none in the diagram without it. -/
theorem ofRaw_skip (raw : RawDiagram) : ofRaw .skip raw = ofRaw .reject raw.known := by
  have hnodes : readNodes .skip raw.nodes =
      (readNodes .reject raw.known.nodes).map fun x => (x.1, raw.unknownIds) :=
    readNodes_skip raw.nodes
  unfold ofRaw
  rw [hnodes, readNodes_reject]
  cases raw.known.nodes.mapM RawNode.read with
  | error e => rfl
  | ok nodes =>
    exact congrArg (Except.map (Diagram.mk nodes)) (readEdges_eq raw.unknownIds raw.edges)

/-- Refusing what is unknown is a walk over the nodes, and then one over the edges. -/
theorem ofRaw_reject (raw : RawDiagram) :
    ofRaw .reject raw = (raw.nodes.mapM RawNode.read).bind fun nodes =>
      (raw.edges.mapM RawEdge.read).map (Diagram.mk nodes) := by
  unfold ofRaw
  rw [readNodes_reject]
  cases raw.nodes.mapM RawNode.read with
  | error e => rfl
  | ok nodes => exact congrArg (Except.map (Diagram.mk nodes)) (readEdges_nil raw.edges)

theorem ofRaw_reject_eq_ok_iff :
    ofRaw .reject raw = .ok d ↔ List.Forall₂ RawNode.Denotes raw.nodes d.nodes ∧
      List.Forall₂ RawEdge.Denotes raw.edges d.edges := by
  have hnodes : List.Forall₂ RawNode.Denotes raw.nodes d.nodes ↔
      raw.nodes.mapM RawNode.read = .ok d.nodes := by
    simp only [mapM_eq_ok_iff, RawNode.read_eq_ok_iff]
  have hedges : List.Forall₂ RawEdge.Denotes raw.edges d.edges ↔
      raw.edges.mapM RawEdge.read = .ok d.edges := by
    simp only [mapM_eq_ok_iff, RawEdge.read_eq_ok_iff]
  rw [hnodes, hedges, ofRaw_reject]
  cases raw.nodes.mapM RawNode.read with
  | error e => exact ⟨nofun, fun h => nomatch h.1⟩
  | ok nodes =>
    show Except.map _ _ = _ ↔ _
    rw [Json.map_eq_ok_iff]
    constructor
    · rintro ⟨edges, hread, rfl⟩
      exact ⟨rfl, hread⟩
    · rintro ⟨heq, hread⟩
      cases heq
      exact ⟨d.edges, hread, rfl⟩

theorem ofRaw_reject_eq_error_iff :
    ofRaw .reject raw = .error e ↔ IsFirstFault RawNode.Fault raw.nodes e ∨
      (∀ r ∈ raw.nodes, ∀ e', ¬ r.Fault e') ∧ IsFirstFault RawEdge.Fault raw.edges e := by
  have hnodes (e' : FlowError) : IsFirstFault RawNode.Fault raw.nodes e' ↔
      raw.nodes.mapM RawNode.read = .error e' := by
    simp only [mapM_eq_error_iff, RawNode.read_eq_error_iff]
  have hedges : IsFirstFault RawEdge.Fault raw.edges e ↔
      raw.edges.mapM RawEdge.read = .error e := by
    simp only [mapM_eq_error_iff, RawEdge.read_eq_error_iff]
  have hsound : (∀ r ∈ raw.nodes, ∀ e', ¬ r.Fault e') ↔
      ¬ ∃ e', raw.nodes.mapM RawNode.read = .error e' := by
    simp only [← hnodes, exists_isFirstFault_iff, not_exists, not_and]
  rw [hnodes, hedges, hsound, ofRaw_reject]
  cases raw.nodes.mapM RawNode.read with
  | error e' => simp [Except.bind]
  | ok nodes => cases raw.edges.mapM RawEdge.read <;> simp [Except.bind, Except.map]

/-- **Reading with nodes of no known kind.** To skip them is to refuse none in the diagram without
them and without the edges at their ids. Refusing them fails just if some node has no known kind, or
the bag of some node or edge does not fit; it fails with the first of these faults, nodes before
edges. Otherwise the diagram has a node for each node and an edge for each edge, in their order. -/
theorem skipping_reads_known :
    (∀ raw, ofRaw .skip raw = ofRaw .reject raw.known) ∧
      ∀ raw, (∀ e, ofRaw .reject raw = .error e ↔ IsFirstFault RawNode.Fault raw.nodes e ∨
          (∀ r ∈ raw.nodes, ∀ e', ¬ r.Fault e') ∧ IsFirstFault RawEdge.Fault raw.edges e) ∧
        ((∃ e, ofRaw .reject raw = .error e) ↔
          (∃ r ∈ raw.nodes, ∃ e, r.Fault e) ∨ ∃ r ∈ raw.edges, ∃ e, r.Fault e) ∧
        ∀ d, ofRaw .reject raw = .ok d ↔ List.Forall₂ RawNode.Denotes raw.nodes d.nodes ∧
          List.Forall₂ RawEdge.Denotes raw.edges d.edges := by
  refine ⟨ofRaw_skip, fun raw => ⟨fun e => ofRaw_reject_eq_error_iff, ?_,
    fun d => ofRaw_reject_eq_ok_iff⟩⟩
  simp only [ofRaw_reject_eq_error_iff, exists_or, exists_and_left, exists_isFirstFault_iff]
  by_cases hfault : ∃ r ∈ raw.nodes, ∃ e, r.Fault e
  · exact iff_of_true (.inl hfault) (.inl hfault)
  · have hsound : ∀ r ∈ raw.nodes, ∀ e, ¬ r.Fault e := fun r hr e he => hfault ⟨r, hr, e, he⟩
    exact or_congr_right (and_iff_right hsound)

/-- An edge at an id is left out with a node of the id, even if another node of it stays. -/
example : ofRaw .skip ⟨[⟨"X", "user", .null⟩, ⟨"X", "timer", .null⟩, ⟨"E", "end", .null⟩],
    [⟨"e", "X", "E", .null⟩]⟩ =
      .ok ⟨[⟨"X", .user, .user {}⟩, ⟨"E", .finish, .finish ""⟩], []⟩ := rfl

end Diagram

end ApprovalFlow
