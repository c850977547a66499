import ApprovalFlow.Definition.Compile
import ApprovalFlow.Diagram.Basic
import ApprovalFlow.Proofs.Json.Record

/-!
# Diagrams that were read

A diagram that is put together by hand may give a node the properties of another kind, and then it is
not compiled. Reading takes the record of the properties from the kind of the node. So what was read
can be compiled, whatever the text.

- `NodeProperties.Fits`: properties that belong to a kind.
- `Diagram.fits_of_ofText`: the nodes of a diagram that was read have properties of their kinds.
- `Diagram.exists_compile`: such nodes are all that compiling takes.
- `Diagram.exists_compile_of_ofText`: **a diagram that was read is compiled without an error.**
-/

namespace ApprovalFlow

/-- Are these the properties of a node of the kind? -/
def NodeProperties.Fits : NodeKind → NodeProperties → Prop
  | .start, .start _ | .finish, .finish _ | .user, .user _ | .condition, .condition _
  | .parallel, .gateway _ | .inclusion, .gateway _ | .automation, .automation _ => True
  | _, _ => False

/-! ## Reading -/

/-- A bag is read as properties of the kind. -/
theorem NodeProperties.fits_of_ofBag {owner : String} {kind : NodeKind} {bag : Json}
    {p : NodeProperties} (h : ofBag owner kind bag = .ok p) : p.Fits kind := by
  cases kind with
  | start | finish | user | condition | parallel | inclusion | automation =>
    obtain ⟨a, -, rfl⟩ := Json.map_eq_ok_iff.mp h
    trivial

namespace Diagram

variable {policy : UnknownNodePolicy} {d : Diagram}

/-- Nodes are read with properties of their kinds. -/
theorem fits_of_readNodes {raw : List RawNode} {nodes : List DiagramNode} {skipped : List String}
    (h : readNodes policy raw = .ok (nodes, skipped)) :
    ∀ n ∈ nodes, n.properties.Fits n.kind := by
  induction raw generalizing nodes skipped with
  | nil =>
    obtain ⟨rfl, -⟩ := Prod.mk.inj (Except.ok.inj h)
    exact fun n hn => nomatch hn
  | cons r rest ih =>
    unfold readNodes at h
    split at h
    · cases h
    · obtain ⟨⟨nodes', skipped'⟩, hrest, heq⟩ := Json.map_eq_ok_iff.mp h
      obtain ⟨rfl, -⟩ := Prod.mk.inj heq
      exact ih hrest
    · split at h
      · rename_i hbag
        obtain ⟨⟨nodes', skipped'⟩, hrest, heq⟩ := Json.map_eq_ok_iff.mp h
        obtain ⟨rfl, -⟩ := Prod.mk.inj heq
        intro n hn
        rcases List.mem_cons.mp hn with rfl | hn
        · exact NodeProperties.fits_of_ofBag hbag
        · exact ih hrest n hn
      · cases h

theorem fits_of_ofRaw {raw : RawDiagram} (h : ofRaw policy raw = .ok d) :
    ∀ n ∈ d.nodes, n.properties.Fits n.kind := by
  unfold ofRaw at h
  split at h
  · rename_i hnodes
    obtain ⟨edges, -, rfl⟩ := Json.map_eq_ok_iff.mp h
    exact fits_of_readNodes hnodes
  · cases h

/-- **The nodes of a diagram that was read have properties of their kinds.** -/
theorem fits_of_ofText {text : String} (h : ofText policy text = .ok d) :
    ∀ n ∈ d.nodes, n.properties.Fits n.kind := by
  unfold ofText at h
  split at h
  · split at h
    · exact fits_of_ofRaw h
    · cases h
  · split at h
    · exact fits_of_ofRaw h
    · cases h

end Diagram

/-! ## Compiling -/

namespace Blueprint

theorem exists_lower (b : Blueprint) {n : DiagramNode} (hn : n.properties.Fits n.kind) :
    ∃ m, b.lower n = .ok m := by
  obtain ⟨id, kind, properties⟩ := n
  cases kind with
  | user =>
    cases properties with
    | user p => exact ⟨_, rfl⟩
    | _ => cases hn
  | automation =>
    cases properties with
    | automation p => exact ⟨_, rfl⟩
    | _ => cases hn
  | _ => exact ⟨_, rfl⟩

theorem exists_lowerAll (b : Blueprint) {nodes : List DiagramNode}
    (hnodes : ∀ n ∈ nodes, n.properties.Fits n.kind) (emitted : List String) :
    ∃ out, b.lowerAll emitted nodes = .ok out := by
  induction nodes generalizing emitted with
  | nil => exact ⟨[], rfl⟩
  | cons n rest ih =>
    obtain ⟨m, hm⟩ := b.exists_lower (hnodes n List.mem_cons_self)
    obtain ⟨out, hout⟩ := ih (fun n' hn' => hnodes n' (List.mem_cons_of_mem n hn'))
      (emitted ++ (b.newProxies emitted n).map (·.id))
    refine ⟨b.newProxies emitted n ++ m :: out, ?_⟩
    rw [lowerAll, hm, hout]
    rfl

end Blueprint

namespace Diagram

/-- Properties of the right kind are all that compiling takes. -/
theorem exists_compile {d : Diagram} (hd : ∀ n ∈ d.nodes, n.properties.Fits n.kind)
    (options : CompilerOptions) (name : String) : ∃ p, d.compile options name = .ok p := by
  obtain ⟨out, hout⟩ := (Blueprint.ofDiagram options d).exists_lowerAll hd []
  refine ⟨⟨name, out⟩, ?_⟩
  unfold compile
  rw [hout]
  rfl

/-- **A diagram that was read is compiled without an error**, whatever the text. -/
theorem exists_compile_of_ofText {policy : UnknownNodePolicy} {text : String} {d : Diagram}
    (h : ofText policy text = .ok d) (options : CompilerOptions) (name : String) :
    ∃ p, d.compile options name = .ok p :=
  exists_compile (fits_of_ofText h) options name

end Diagram

end ApprovalFlow
