import ApprovalFlow.Diagram.Basic
import ApprovalFlow.Proofs.Json.Stable

/-!
# Diagrams from texts and from documents

A diagram is read from a text in the order in which the text is written, and from a document that
was put in canonical form before. A text that gives a field of the diagram, of a node or of an edge
twice is refused, while of its document the last of them counts. Apart from that the two agree.

- `RawDiagram.stable_ofJson`: what is read from a document is read from its canonical form.
- `RawDiagram.GivesOnce`: the diagram, each node and each edge give no field twice.
- `RawDiagram.ofJson_eq_ok_iff`: a document is read just when its canonical form is, unless it gives
  a field twice.
- `Diagram.readings_agree`: **a text denotes a diagram just when its document does and gives no
  field twice.**
-/

namespace ApprovalFlow

namespace RawDiagram

/-! ## Layouts -/

/-- The nodes of a stored diagram. -/
def nodesField : Json.Field :=
  ⟨"nodes", [], List RawNode, Json.readList nodeLayout.read, some []⟩

/-- The edges of a stored diagram. -/
def edgesField : Json.Field :=
  ⟨"edges", [], List RawEdge, Json.readList edgeLayout.read, some []⟩

theorem fields_layout : layout.fields = [nodesField, edgesField] := rfl

theorem regular_nodeLayout : nodeLayout.Regular := ⟨by decide, rfl⟩

theorem regular_edgeLayout : edgeLayout.Regular := ⟨by decide, rfl⟩

theorem regular_layout : layout.Regular := ⟨by decide, rfl⟩

theorem blind_nodeLayout : ∀ f ∈ nodeLayout.fields, f.aliases = [] ∧ Json.Blind f.read := by
  simp only [nodeLayout, List.forall_mem_cons, true_and]
  exact ⟨Json.blind_readText, Json.blind_readText, Json.blind_readAny, nofun⟩

theorem blind_edgeLayout : ∀ f ∈ edgeLayout.fields, f.aliases = [] ∧ Json.Blind f.read := by
  simp only [edgeLayout, List.forall_mem_cons, true_and]
  exact ⟨Json.blind_readText, Json.blind_readText, Json.blind_readText, Json.blind_readAny, nofun⟩

theorem stable_nodeLayout : Json.Stable nodeLayout.read :=
  Json.Layout.stable_of_blind regular_nodeLayout blind_nodeLayout

theorem stable_edgeLayout : Json.Stable edgeLayout.read :=
  Json.Layout.stable_of_blind regular_edgeLayout blind_edgeLayout

/-- A diagram that is read from a document is read from its canonical form. -/
theorem stable_ofJson : Json.Stable ofJson := by
  refine Json.Layout.read_canonical regular_layout ?_
  simp only [fields_layout, List.forall_mem_cons]
  exact ⟨⟨rfl, Json.stable_readList stable_nodeLayout⟩,
    ⟨rfl, Json.stable_readList stable_edgeLayout⟩, nofun⟩

/-! ## Fields given twice -/

/-- The diagram, each node and each edge of the document give no field twice. -/
structure GivesOnce (j : Json) : Prop where
  diagram : layout.GivesOnce j
  nodes : ∀ items, .array items ∈ layout.given j nodesField →
    ∀ node ∈ items, nodeLayout.GivesOnce node
  edges : ∀ items, .array items ∈ layout.given j edgesField →
    ∀ edge ∈ items, edgeLayout.GivesOnce edge

variable {j : Json} {raw : RawDiagram}

/-- What is read as a list of records gives no field of a record twice. -/
theorem givesOnce_of_readList {α : Type} {l : Json.Layout α} (hl : l.Regular) {items : List Json}
    {as : List α} (h : Json.readList l.read (.array items) = .ok as) :
    ∀ item ∈ items, l.GivesOnce item := by
  intro item hitem
  obtain ⟨_, heq, has⟩ := Json.readList_eq_ok_iff.mp h
  cases heq
  obtain ⟨i, hi, rfl⟩ := List.mem_iff_getElem.mp hitem
  exact Json.Layout.givesOnce_of_read hl (has.get hi (has.length_eq ▸ hi))

theorem givesOnce_of_ofJson (h : ofJson j = .ok raw) : GivesOnce j where
  diagram := Json.Layout.givesOnce_of_read regular_layout h
  nodes := by
    intro items hitems
    obtain ⟨nodes, hnodes⟩ := Json.Layout.exists_read_of_read regular_layout h
      (fields_layout ▸ List.mem_cons_self) hitems
    exact givesOnce_of_readList regular_nodeLayout hnodes
  edges := by
    intro items hitems
    obtain ⟨edges, hedges⟩ := Json.Layout.exists_read_of_read regular_layout h
      (fields_layout ▸ List.mem_cons_of_mem _ List.mem_cons_self) hitems
    exact givesOnce_of_readList regular_edgeLayout hedges

theorem ofJson_of_canonical (hone : GivesOnce j) (h : ofJson j.canonical = .ok raw) :
    ofJson j = .ok raw := by
  refine Json.Layout.read_of_canonical regular_layout hone.diagram ?_ h
  simp only [fields_layout, List.forall_mem_cons]
  refine ⟨⟨rfl, fun part hpart nodes => ?_⟩, ⟨rfl, fun part hpart edges => ?_⟩, nofun⟩
  · refine Json.readList_of_canonical fun items hitems node hmem n => ?_
    exact Json.Layout.read_of_blind regular_nodeLayout blind_nodeLayout
      (hone.nodes items (hitems ▸ hpart) node hmem)
  · refine Json.readList_of_canonical fun items hitems edge hmem e => ?_
    exact Json.Layout.read_of_blind regular_edgeLayout blind_edgeLayout
      (hone.edges items (hitems ▸ hpart) edge hmem)

/-- **A document is read as a diagram just when its canonical form is and it gives no field
twice.** -/
theorem ofJson_eq_ok_iff : ofJson j = .ok raw ↔ ofJson j.canonical = .ok raw ∧ GivesOnce j :=
  ⟨fun h => ⟨stable_ofJson j raw h, givesOnce_of_ofJson h⟩, fun h => ofJson_of_canonical h.2 h.1⟩

example :
    let j := Json.object [("nodes", .array []), ("nodes", .array [])]
    ofJson j.canonical = .ok ⟨[], []⟩ ∧ ofJson j = .error (.duplicateField "nodes") := ⟨rfl, rfl⟩

end RawDiagram

namespace Diagram

variable {policy : UnknownNodePolicy} {j : Json} {d : Diagram}

theorem ofJson_eq_ok_iff :
    ofJson policy j = .ok d ↔
      ∃ raw, RawDiagram.ofJson j.canonical = .ok raw ∧ ofRaw policy raw = .ok d := by
  unfold ofJson
  cases RawDiagram.ofJson j.canonical with
  | error e => exact ⟨nofun, fun ⟨_, h, _⟩ => nomatch h⟩
  | ok raw =>
    show ofRaw policy raw = .ok d ↔ _
    simp only [Except.ok.injEq, exists_eq_left']

theorem ofText_eq_ok_iff {text : String} (h : Json.ofText? text = some j) :
    ofText policy text = .ok d ↔
      ∃ raw, RawDiagram.ofJson j = .ok raw ∧ ofRaw policy raw = .ok d := by
  unfold ofText
  rw [h]
  dsimp only
  cases RawDiagram.ofJson j with
  | error e => exact ⟨nofun, fun ⟨_, h, _⟩ => nomatch h⟩
  | ok raw =>
    show ofRaw policy raw = .ok d ↔ _
    simp only [Except.ok.injEq, exists_eq_left']

/-- **A text denotes a diagram just when its document does and gives no field twice.** The document
of a text is the canonical form of what is written: members in the order of their names, and of those
with one name the last. -/
theorem readings_agree {text : String} (h : Json.ofText? text = some j) :
    ofText policy text = .ok d ↔
      ofJson policy j.canonical = .ok d ∧ RawDiagram.GivesOnce j := by
  rw [ofText_eq_ok_iff h, ofJson_eq_ok_iff, Json.canonical_canonical]
  constructor
  · rintro ⟨raw, hraw, hd⟩
    obtain ⟨hraw, hone⟩ := RawDiagram.ofJson_eq_ok_iff.mp hraw
    exact ⟨⟨raw, hraw, hd⟩, hone⟩
  · rintro ⟨⟨raw, hraw, hd⟩, hone⟩
    exact ⟨raw, RawDiagram.ofJson_eq_ok_iff.mpr ⟨hraw, hone⟩, hd⟩

/-- The node is given as an array, and a name of no field stands twice. -/
theorem readings_agree_array :
    ∃ j, Json.ofText? "\x7b\"z\":[],\"nodes\":[[\"a\",\"start\"]],\"z\":[]\x7d" = some j ∧
      ofJson .reject j.canonical = .ok ⟨[⟨"a", .start, .start ""⟩], []⟩ ∧
      RawDiagram.GivesOnce j := by
  have htext : Json.ofText? "\x7b\"z\":[],\"nodes\":[[\"a\",\"start\"]],\"z\":[]\x7d" = some
      (.object
        [("z", .array []),
          ("nodes", .array [.array [.text "a", .text "start"]]),
          ("z", .array [])]) := by with_unfolding_all rfl
  exact ⟨_, htext, (readings_agree htext).mp ((ofText_eq_ok_iff htext).mpr ⟨_, rfl, rfl⟩)⟩

end Diagram

end ApprovalFlow
