import ApprovalFlow.Definition.Format
import ApprovalFlow.Proofs.Diagram.Reading
import ApprovalFlow.Task.Format

/-!
# Round trips

Definitions, tasks and stored diagrams are exchanged as documents. Each has one document that it is
written as, and many that it can be read from: fields may stand in any order, be left out where they
have a default, or be given by their places in an array.

- `Json.RoundTrips`: what is written is read back, from the document as it is written and from its
  canonical form, and what is read from any document can be written and read back.
- `ProcessDefinition.ofJson_toJson`, `Task.ofJson_toJson`, `RawDiagram.ofJson_toJson`: what is
  written is read back.
- `RawDiagram.Sorted`: bags of properties are in canonical form, as all bags are that are read.
- `documents_round_trip`: **definitions, tasks and stored diagrams make the round trip.**
-/

namespace ApprovalFlow

namespace Json

/-- What is written for the valid values is read as them, and only such values are ever read. -/
structure RoundTrips {α : Type} (read : Json → Except Mismatch α) (write : α → Json)
    (Valid : α → Prop) : Prop where
  written : ∀ a, Valid a → read (write a) = .ok a ∧ read (write a).canonical = .ok a
  reread : ∀ j a, read j = .ok a →
    Valid a ∧ read (write a) = .ok a ∧ read (write a).canonical = .ok a

section

variable {α : Type} {read : Json → Except Mismatch α} {write : α → Json} {Valid : α → Prop}

theorem RoundTrips.of_stable (hstable : Stable read) (hread : ∀ a, Valid a → read (write a) = .ok a)
    (hvalid : ∀ j a, read j = .ok a → Valid a) : RoundTrips read write Valid where
  written := fun a ha => ⟨hread a ha, hstable _ _ (hread a ha)⟩
  reread := fun j a hj =>
    have ha := hvalid j a hj
    ⟨ha, hread a ha, hstable _ _ (hread a ha)⟩

theorem readList_ofList {as : List α} (h : ∀ a ∈ as, read (write a) = .ok a) :
    readList read (ofList write as) = .ok as := by
  refine readList_eq_ok_iff.mpr ⟨as.map write, rfl, List.forall₂_map_left_iff.mpr ?_⟩
  exact List.forall₂_same.mpr h

theorem readList_texts (texts : List String) : readList readText (Json.texts texts) = .ok texts :=
  readList_ofList fun _ _ => rfl

end

end Json

/-! ## Definitions -/

/-- Every type has a name of its own. -/
theorem ProcessNodeType.ofJson_name (type : ProcessNodeType) :
    ofJson (.text type.name) = .ok type := by
  cases type <;> rfl

/-- Every policy has a code of its own. -/
theorem JoinPolicy.ofJson_code (policy : JoinPolicy) :
    JoinPolicy.ofJson (.integer policy.code) = .ok policy := by
  cases policy <;> rfl

theorem JoinPolicy.blind_ofJson : Json.Blind JoinPolicy.ofJson :=
  Json.blind_of_flat (fun _ _ => rfl) fun _ _ => rfl

namespace ProcessDefinition

theorem regular_conditionLayout : conditionLayout.Regular := ⟨by decide, rfl⟩

theorem regular_gatewayLayout : gatewayLayout.Regular := ⟨by decide, rfl⟩

theorem regular_nodeLayout : nodeLayout.Regular := ⟨by decide, rfl⟩

theorem regular_layout : layout.Regular := ⟨by decide, rfl⟩

theorem stable_conditionLayout : Json.Stable conditionLayout.read := by
  refine Json.Layout.stable_of_blind regular_conditionLayout ?_
  simp only [conditionLayout, List.forall_mem_cons, true_and]
  exact ⟨Json.blind_readText, Json.blind_readText, nofun⟩

theorem stable_gatewayLayout : Json.Stable gatewayLayout.read := by
  refine Json.Layout.read_canonical regular_gatewayLayout ?_
  simp only [gatewayLayout, List.forall_mem_cons, true_and]
  exact ⟨Json.stable_readList stable_conditionLayout,
    Json.stable_readList Json.blind_readText.stable, JoinPolicy.blind_ofJson.stable, nofun⟩

theorem stable_nodeLayout : Json.Stable nodeLayout.read := by
  have htext : Json.Stable Json.readText := Json.blind_readText.stable
  have htexts : Json.Stable (Json.readList Json.readText) := Json.stable_readList htext
  refine Json.Layout.read_canonical regular_nodeLayout ?_
  simp only [nodeLayout, List.forall_mem_cons, true_and]
  exact ⟨htext, htext, Json.stable_readChoice Json.blind_readNothing, htexts, htexts,
    Json.stable_readOptional stable_gatewayLayout, htexts, htexts, htexts,
    Json.blind_readBool.stable, nofun⟩

theorem stable_ofJson : Json.Stable ofJson := by
  refine Json.Layout.read_canonical regular_layout ?_
  simp only [layout, List.forall_mem_cons, true_and]
  exact ⟨Json.blind_readText.stable, Json.stable_readList stable_nodeLayout, nofun⟩

theorem read_conditionToJson (c : GatewayCondition) :
    conditionLayout.read (conditionToJson c) = .ok c :=
  (Json.Layout.read_object_eq_ok_iff regular_conditionLayout).mpr
    ⟨(c.expression, c.target, ()), ⟨rfl, rfl, trivial⟩, rfl⟩

theorem read_gatewayToJson (g : GatewayConfig) : gatewayLayout.read (gatewayToJson g) = .ok g :=
  (Json.Layout.read_object_eq_ok_iff regular_gatewayLayout).mpr
    ⟨(g.conditions, g.mandatorySuccessors, g.joinPolicy, ()),
      ⟨Json.readList_ofList fun c _ => read_conditionToJson c, Json.readList_texts _,
        JoinPolicy.ofJson_code g.joinPolicy, trivial⟩, rfl⟩

/-- A node is read back with its gateway, and without one if it has none. -/
theorem read_nodeToJson (n : ProcessNode) : nodeLayout.read (nodeToJson n) = .ok n := by
  have htexts := Json.readList_texts
  obtain ⟨id, name, type, approverIds, predecessorIds, gateway, finish, start, stop, cosigned⟩ := n
  refine (Json.Layout.read_object_eq_ok_iff regular_nodeLayout).mpr
    ⟨(id, name, type, approverIds, predecessorIds, gateway, finish, start, stop, cosigned, ()),
      ?_, rfl⟩
  cases gateway with
  | none =>
    exact ⟨rfl, rfl, ProcessNodeType.ofJson_name type, htexts _, htexts _, rfl, htexts _, htexts _,
      htexts _, rfl, trivial⟩
  | some g =>
    have hgateway : Json.readOptional gatewayLayout.read (gatewayToJson g) = .ok (some g) :=
      Json.map_eq_ok_iff.mpr ⟨g, read_gatewayToJson g, rfl⟩
    exact ⟨rfl, rfl, ProcessNodeType.ofJson_name type, htexts _, htexts _, hgateway, htexts _,
      htexts _, htexts _, rfl, trivial⟩

theorem ofJson_toJson (d : ProcessDefinition) : ofJson d.toJson = .ok d :=
  (Json.Layout.read_object_eq_ok_iff regular_layout).mpr
    ⟨(d.name, d.nodes, ()),
      ⟨rfl, Json.readList_ofList fun n _ => read_nodeToJson n, trivial⟩, rfl⟩

end ProcessDefinition

/-! ## Tasks -/

/-- Every status has a code of its own. -/
theorem TaskStatus.ofJson_code (status : TaskStatus) :
    TaskStatus.ofJson (.integer status.code) = .ok status := by
  cases status <;> rfl

theorem TaskStatus.blind_ofJson : Json.Blind TaskStatus.ofJson :=
  Json.blind_of_flat (fun _ _ => rfl) fun _ _ => rfl

namespace Task

theorem regular_layout : layout.Regular := ⟨by decide, rfl⟩

theorem stable_ofJson : Json.Stable ofJson := by
  have htext : Json.Blind Json.readText := Json.blind_readText
  have hbool : Json.Blind Json.readBool := Json.blind_readBool
  refine Json.Layout.stable_of_blind regular_layout ?_
  simp only [layout, List.forall_mem_cons, true_and]
  exact ⟨htext, htext, htext, htext, htext, TaskStatus.blind_ofJson, hbool, hbool, htext, nofun⟩

theorem ofJson_toJson (t : Task) : ofJson t.toJson = .ok t :=
  (Json.Layout.read_object_eq_ok_iff regular_layout).mpr
    ⟨(t.id, t.instanceId, t.nodeId, t.batch, t.userId, t.status, t.finished, t.cosigned,
        t.comment, ()),
      ⟨rfl, rfl, rfl, rfl, rfl, TaskStatus.ofJson_code t.status, rfl, rfl, rfl, trivial⟩, rfl⟩

end Task

/-! ## Stored diagrams -/

namespace RawDiagram

/-- The bags of properties are in canonical form. -/
structure Sorted (raw : RawDiagram) : Prop where
  nodes : ∀ n ∈ raw.nodes, n.properties.canonical = n.properties
  edges : ∀ e ∈ raw.edges, e.properties.canonical = e.properties

theorem read_nodeToJson {n : RawNode} (h : n.properties.canonical = n.properties) :
    nodeLayout.read (nodeToJson n) = .ok n :=
  (Json.Layout.read_object_eq_ok_iff regular_nodeLayout).mpr
    ⟨(n.id, n.type, n.properties, ()), ⟨rfl, rfl, congrArg Except.ok h, trivial⟩, rfl⟩

theorem read_edgeToJson {e : RawEdge} (h : e.properties.canonical = e.properties) :
    edgeLayout.read (edgeToJson e) = .ok e :=
  (Json.Layout.read_object_eq_ok_iff regular_edgeLayout).mpr
    ⟨(e.id, e.source, e.target, e.properties, ()),
      ⟨rfl, rfl, rfl, congrArg Except.ok h, trivial⟩, rfl⟩

theorem ofJson_toJson {raw : RawDiagram} (h : raw.Sorted) : ofJson raw.toJson = .ok raw :=
  (Json.Layout.read_object_eq_ok_iff regular_layout).mpr
    ⟨(raw.nodes, raw.edges, ()),
      ⟨Json.readList_ofList fun n hn => read_nodeToJson (h.nodes n hn),
        Json.readList_ofList fun e he => read_edgeToJson (h.edges e he), trivial⟩, rfl⟩

theorem canonical_of_takes {given : List Json} {bag : Json} (h : bagField.Takes given bag) :
    bag.canonical = bag := by
  rcases h.default_or_read with hdefault | ⟨j, hread⟩
  · cases hdefault
    rfl
  · cases hread
    exact Json.canonical_canonical j

theorem canonical_of_read_node {j : Json} {n : RawNode} (h : nodeLayout.read j = .ok n) :
    n.properties.canonical = n.properties := by
  obtain ⟨-, ⟨id, type, bag, ⟨⟩⟩, ⟨-, -, hbag, -⟩, rfl⟩ :=
    (Json.Layout.read_eq_ok_iff regular_nodeLayout).mp h
  exact canonical_of_takes hbag

theorem canonical_of_read_edge {j : Json} {e : RawEdge} (h : edgeLayout.read j = .ok e) :
    e.properties.canonical = e.properties := by
  obtain ⟨-, ⟨id, source, target, bag, ⟨⟩⟩, ⟨-, -, -, hbag, -⟩, rfl⟩ :=
    (Json.Layout.read_eq_ok_iff regular_edgeLayout).mp h
  exact canonical_of_takes hbag

/-- Bags of properties are put in canonical form when they are read. -/
theorem sorted_of_ofJson {j : Json} {raw : RawDiagram} (h : ofJson j = .ok raw) : raw.Sorted := by
  obtain ⟨-, ⟨nodes, edges, ⟨⟩⟩, ⟨hnodes, hedges, -⟩, rfl⟩ :=
    (Json.Layout.read_eq_ok_iff regular_layout).mp h
  constructor
  · rcases hnodes.default_or_read with hdefault | ⟨part, hread⟩
    · cases hdefault
      exact nofun
    · exact Json.forall_of_readList hread fun j n => canonical_of_read_node
  · rcases hedges.default_or_read with hdefault | ⟨part, hread⟩
    · cases hdefault
      exact nofun
    · exact Json.forall_of_readList hread fun j e => canonical_of_read_edge

end RawDiagram

/-- **Definitions, tasks and stored diagrams make the round trip.** Whatever form a document has that
one of them is read from, writing it gives a document that is read as the same. -/
theorem documents_round_trip :
    Json.RoundTrips ProcessDefinition.ofJson ProcessDefinition.toJson (fun _ => True) ∧
      Json.RoundTrips Task.ofJson Task.toJson (fun _ => True) ∧
      Json.RoundTrips RawDiagram.ofJson RawDiagram.toJson RawDiagram.Sorted :=
  ⟨.of_stable ProcessDefinition.stable_ofJson (fun d _ => d.ofJson_toJson) fun _ _ _ => trivial,
    .of_stable Task.stable_ofJson (fun t _ => t.ofJson_toJson) fun _ _ _ => trivial,
    .of_stable RawDiagram.stable_ofJson (fun _ => RawDiagram.ofJson_toJson) fun _ _ =>
      RawDiagram.sorted_of_ofJson⟩

example :
    let short := Json.array [.array [.array [.text "a", .text "start"]]]
    let node := Json.object [("id", .text "a"), ("type", .text "start"), ("properties", .null)]
    (RawDiagram.ofJson short).map RawDiagram.toJson =
      .ok (.object [("nodes", .array [node]), ("edges", .array [])]) := rfl

end ApprovalFlow
