import ApprovalFlow.Diagram.Adjacency
import ApprovalFlow.Proofs.SortedMap
import Mathlib.Data.List.Find
import Mathlib.Data.List.Induction

/-!
# Neighbours in a diagram, exactly

The adjacency of a diagram is filled by two loops, and the loop over the edges changes two lists for
each edge: the successors at its source and the predecessors at its target, which for an edge from a
node to itself belong to one entry. The lemmas here say what these loops leave behind.

- `Diagram.kindOf?`, `Diagram.HasEdge`, `Diagram.firstEdge`: the kind of an id, the edges between
  nodes, and the place of the first one, read off the lists of the diagram.
- `Neighbourhood.meet`: what one edge between two nodes does to one entry; `find?_link` and
  `find?_foldl_link` say that an entry changes by it and by nothing else.
- `kind?_ofDiagram`, `successors_ofDiagram`, `predecessors_ofDiagram`: the entries in closed form.
- `mem_successors_iff`, `mem_predecessors_iff`: **both lists hold just the ends of edges between
  nodes**, so they agree with each other.
- `find?_predecessors`: the predecessor found first begins the first edge that is found.
- `successors_pairwise`, `predecessors_pairwise`: **neighbours stand in the order of first edges.**
- `ofDiagram_exact`: the adjacency of a diagram is exact, from both ends of every edge.
-/

namespace ApprovalFlow

namespace Diagram

/-- The kind of the first node with the id. -/
def kindOf? (d : Diagram) (id : String) : Option NodeKind := (d.node? id).map (·.kind)

/-- Is there an edge between two nodes of the diagram? -/
def HasEdge (d : Diagram) (a b : String) : Prop :=
  (∃ e ∈ d.edges, e.source = a ∧ e.target = b) ∧ (∃ n ∈ d.nodes, n.id = a) ∧ ∃ n ∈ d.nodes, n.id = b

instance (d : Diagram) (a b : String) : Decidable (d.HasEdge a b) :=
  inferInstanceAs (Decidable (_ ∧ _ ∧ _))

/-- The place of the first edge from `a` to `b`. -/
def firstEdge (d : Diagram) (a b : String) : Nat :=
  d.edges.findIdx fun e => e.source == a && e.target == b

/-- The edges between nodes, in order. -/
def linkingEdges (d : Diagram) : List DiagramEdge :=
  d.edges.filter fun e => (d.kindOf? e.source).isSome && (d.kindOf? e.target).isSome

variable {d : Diagram}

/-- An id has a kind iff it is the id of a node. -/
theorem isSome_kindOf? {id : String} : (d.kindOf? id).isSome ↔ ∃ n ∈ d.nodes, n.id = id := by
  unfold kindOf? node?
  rw [Option.isSome_map, List.find?_isSome]
  simp only [beq_iff_eq]

/-- If ids differ, the kind of a node's id is the kind of the node. -/
theorem kindOf?_eq (hd : (d.nodes.map (·.id)).Nodup) {n : DiagramNode} (hn : n ∈ d.nodes) :
    d.kindOf? n.id = some n.kind := by
  obtain ⟨m, hm⟩ : ∃ m, d.nodes.find? (fun m => m.id == n.id) = some m :=
    Option.isSome_iff_exists.mp (List.find?_isSome.mpr ⟨n, hn, beq_self_eq_true n.id⟩)
  have hid : m.id = n.id := by simpa using List.find?_some hm
  have hmn : m = n := List.inj_on_of_nodup_map hd (List.mem_of_find?_eq_some hm) hn hid
  show (d.nodes.find? _).map _ = _
  rw [hm, hmn]
  rfl

/-- Both ends of an edge between nodes have a kind. -/
theorem isSome_of_mem_linkingEdges {e : DiagramEdge} (he : e ∈ d.linkingEdges) :
    (d.kindOf? e.source).isSome = true ∧ (d.kindOf? e.target).isSome = true := by
  have hends := (List.mem_filter.mp he).2
  rwa [Bool.and_eq_true] at hends

/-- There is an edge between two nodes iff one of the edges between nodes joins them. -/
theorem hasEdge_iff {a b : String} :
    d.HasEdge a b ↔ ∃ e ∈ d.linkingEdges, e.source = a ∧ e.target = b := by
  constructor
  · rintro ⟨⟨e, he, rfl, rfl⟩, ha, hb⟩
    refine ⟨e, List.mem_filter.mpr ⟨he, ?_⟩, rfl, rfl⟩
    rw [isSome_kindOf?.mpr ha, isSome_kindOf?.mpr hb]
    rfl
  · rintro ⟨e, he, rfl, rfl⟩
    obtain ⟨ha, hb⟩ := isSome_of_mem_linkingEdges he
    exact ⟨⟨e, (List.mem_filter.mp he).1, rfl, rfl⟩, isSome_kindOf?.mp ha, isSome_kindOf?.mp hb⟩

end Diagram

namespace Adjacency

/-! ## Lists without repetition -/

theorem pushNew_of_mem {l : List String} {s : String} (h : s ∈ l) : pushNew l s = l :=
  if_pos (List.contains_iff_mem.mpr h)

theorem pushNew_of_notMem {l : List String} {s : String} (h : s ∉ l) : pushNew l s = l ++ [s] :=
  if_neg (mt List.contains_iff_mem.mp h)

theorem mem_pushNew {l : List String} {s x : String} : x ∈ pushNew l s ↔ x ∈ l ∨ x = s := by
  by_cases hs : s ∈ l
  · rw [pushNew_of_mem hs]
    constructor
    · exact .inl
    · rintro (hx | rfl)
      · exact hx
      · exact hs
  · rw [pushNew_of_notMem hs, List.mem_append, List.mem_singleton]

theorem nodup_pushNew {l : List String} (hl : l.Nodup) (s : String) : (pushNew l s).Nodup := by
  by_cases hs : s ∈ l
  · rw [pushNew_of_mem hs]
    exact hl
  · rw [pushNew_of_notMem hs]
    exact List.nodup_append.mpr ⟨hl, List.nodup_singleton s, fun a ha b hb hab =>
      hs (by rw [← List.mem_singleton.mp hb, ← hab]; exact ha)⟩

theorem mem_foldl_pushNew (l acc : List String) {x : String} :
    x ∈ l.foldl pushNew acc ↔ x ∈ acc ∨ x ∈ l := by
  induction l generalizing acc with
  | nil => simp
  | cons s rest ih => rw [List.foldl_cons, ih, mem_pushNew, List.mem_cons, or_assoc]

theorem nodup_foldl_pushNew (l : List String) {acc : List String} (hacc : acc.Nodup) :
    (l.foldl pushNew acc).Nodup := by
  induction l generalizing acc with
  | nil => exact hacc
  | cons s rest ih => exact ih (nodup_pushNew hacc s)

/-- Leaving repetitions out does not change what is found first. -/
theorem find?_foldl_pushNew (test : String → Bool) (l acc : List String) :
    (l.foldl pushNew acc).find? test = (acc.find? test).or (l.find? test) := by
  induction l generalizing acc with
  | nil => exact (Option.or_none).symm
  | cons s rest ih =>
    have hpush : (pushNew acc s).find? test = (acc.find? test).or ([s].find? test) := by
      by_cases hs : s ∈ acc
      · rw [pushNew_of_mem hs]
        -- a second copy would be found only if the first one were not
        cases hfound : acc.find? test with
        | some x => rfl
        | none =>
          have htest : ¬ test s = true := List.find?_eq_none.mp hfound s hs
          rw [List.find?_singleton, if_neg htest]
          rfl
      · rw [pushNew_of_notMem hs, List.find?_append]
    rw [List.foldl_cons, ih, hpush, Option.or_assoc, ← List.find?_append]
    rfl

/-- What is left without repetitions stands in the order of the first copies. -/
theorem foldl_pushNew_pairwise (l : List String) :
    (l.foldl pushNew []).Pairwise fun x y => l.idxOf x < l.idxOf y := by
  induction l using List.reverseRecOn with
  | nil => exact .nil
  | append_singleton l s ih =>
    have hmem : ∀ {x}, x ∈ l.foldl pushNew [] ↔ x ∈ l := by
      intro x
      simp [mem_foldl_pushNew]
    have hkept : (l.foldl pushNew []).Pairwise fun x y =>
        (l ++ [s]).idxOf x < (l ++ [s]).idxOf y := by
      refine ih.imp_of_mem fun hx hy hlt => ?_
      rwa [List.idxOf_append_of_mem (hmem.mp hx), List.idxOf_append_of_mem (hmem.mp hy)]
    rw [List.foldl_append]
    show (pushNew (l.foldl pushNew []) s).Pairwise _
    by_cases hs : s ∈ l
    · rw [pushNew_of_mem (hmem.mpr hs)]
      exact hkept
    · rw [pushNew_of_notMem (mt hmem.mp hs)]
      refine List.pairwise_append.mpr ⟨hkept, List.pairwise_singleton _ _, fun x hx y hy => ?_⟩
      -- what is new has its first copy at the end
      have hlt := List.idxOf_lt_length_of_mem (hmem.mp hx)
      rw [List.mem_singleton.mp hy, List.idxOf_append_of_mem (hmem.mp hx),
        List.idxOf_append_of_notMem hs]
      omega

/-- Among the edges that pass a test, one name comes before another iff the first edge that passes
the test and has the one name comes before the first that passes it and has the other. -/
theorem idxOf_map_filter_lt_iff (test : DiagramEdge → Bool) (name : DiagramEdge → String)
    (edges : List DiagramEdge) (x y : String) :
    ((edges.filter test).map name).idxOf x < ((edges.filter test).map name).idxOf y ↔
      (edges.findIdx fun e => test e && name e == x) <
        edges.findIdx fun e => test e && name e == y := by
  induction edges with
  | nil => simp
  | cons e rest ih =>
    by_cases htest : test e
    · have hplace : ∀ z, ((e :: rest).findIdx fun e => test e && name e == z) =
          if name e = z then 0 else (rest.findIdx fun e => test e && name e == z) + 1 := by
        intro z
        by_cases hz : name e = z
        · simp [List.findIdx_cons, htest, hz]
        · simp [List.findIdx_cons, htest, hz, beq_eq_false_iff_ne.mpr hz]
      have hname : ∀ (l : List String) z, (name e :: l).idxOf z =
          if name e = z then 0 else l.idxOf z + 1 := by
        intro l z
        by_cases hz : name e = z <;> simp [hz]
      rw [List.filter_cons_of_pos htest, List.map_cons, hname, hname, hplace, hplace]
      split_ifs <;> simp [ih]
    · simp [List.findIdx_cons, htest, ih]

/-! ## The loop over the nodes -/

/-- Of the nodes with one id the first counts, unless there was an entry before. -/
theorem find?_foldl_declare (nodes : List DiagramNode) (a : Adjacency) (id : String) :
    (nodes.foldl declare a).find? id =
      (a.find? id).or ((nodes.find? fun n => n.id == id).map fun n => { kind := n.kind }) := by
  induction nodes generalizing a with
  | nil => exact (Option.or_none).symm
  | cons n rest ih =>
    rw [List.foldl_cons, ih, declare, SortedMap.find?_insertNew]
    by_cases h : id = n.id
    · subst h
      cases a.find? n.id <;> simp
    · have hne : (n.id == id) = false := by simpa using Ne.symm h
      rw [if_neg h, List.find?_cons_of_neg (by simp [hne])]

/-! ## The loop over the edges -/

end Adjacency

/-- What an edge between two nodes does to the entry of one id. -/
def Neighbourhood.meet (id : String) (n : Neighbourhood) (e : DiagramEdge) : Neighbourhood where
  kind := n.kind
  predecessors := if id = e.target then Adjacency.pushNew n.predecessors e.source else n.predecessors
  successors := if id = e.source then Adjacency.pushNew n.successors e.target else n.successors

namespace Adjacency

/-- Are both ends of the edge entered? -/
def joins (a : Adjacency) (e : DiagramEdge) : Bool := a.contains e.source && a.contains e.target

/-- A change at `k` changes the entry of `k` alone, and enters nothing. -/
theorem find?_update (a : Adjacency) (k id : String) (f : Neighbourhood → Neighbourhood) :
    (a.update k f).find? id = (a.find? id).map fun n => if id = k then f n else n := by
  unfold update
  by_cases hid : id = k
  · subst hid
    cases h : a.find? id with
    | none => simp [h]
    | some n => simp [SortedMap.find?_insert]
  · simp only [hid, if_false, Option.map_id']
    split
    · rw [SortedMap.find?_insert, if_neg hid]
    · rfl

/-- One edge changes every entry by `meet`, if it is an edge between nodes. -/
theorem find?_link (a : Adjacency) (e : DiagramEdge) (id : String) :
    (a.link e).find? id = (a.find? id).map fun n => if a.joins e then n.meet id e else n := by
  unfold link
  rw [show (a.contains e.source && a.contains e.target) = a.joins e from rfl]
  by_cases h : a.joins e
  · rw [if_pos h, find?_update, find?_update, Option.map_map]
    refine congrArg (fun f => Option.map f (a.find? id)) (funext fun n => ?_)
    -- both ends of an edge from a node to itself are one entry, so both changes can meet in it
    simp only [Function.comp, Neighbourhood.meet, h, if_true]
    split_ifs <;> rfl
  · simp [h]

/-- Edges enter no ids. -/
theorem contains_link (a : Adjacency) (e : DiagramEdge) (id : String) :
    (a.link e).contains id = a.contains id := by
  unfold SortedMap.contains
  rw [find?_link, Option.isSome_map]

theorem find?_foldl_link (edges : List DiagramEdge) (a : Adjacency) (id : String) :
    (edges.foldl link a).find? id =
      (a.find? id).map fun n => (edges.filter a.joins).foldl (Neighbourhood.meet id) n := by
  induction edges generalizing a with
  | nil => simp
  | cons e rest ih =>
    have hjoins : (a.link e).joins = a.joins := by
      funext e'
      simp only [joins, contains_link]
    rw [List.foldl_cons, ih, find?_link, hjoins, Option.map_map]
    refine congrArg (fun f => Option.map f (a.find? id)) (funext fun n => ?_)
    by_cases h : a.joins e
    · simp [h]
    · simp [h]

theorem kind_foldl_meet (edges : List DiagramEdge) (id : String) (n : Neighbourhood) :
    (edges.foldl (Neighbourhood.meet id) n).kind = n.kind := by
  induction edges generalizing n with
  | nil => rfl
  | cons e rest ih => rw [List.foldl_cons, ih]; rfl

theorem successors_foldl_meet (edges : List DiagramEdge) (id : String) (n : Neighbourhood) :
    (edges.foldl (Neighbourhood.meet id) n).successors =
      ((edges.filter fun e => e.source = id).map (·.target)).foldl pushNew n.successors := by
  induction edges generalizing n with
  | nil => rfl
  | cons e rest ih =>
    rw [List.foldl_cons, ih]
    by_cases h : e.source = id
    · simp [Neighbourhood.meet, h]
    · simp [Neighbourhood.meet, h, Ne.symm h]

theorem predecessors_foldl_meet (edges : List DiagramEdge) (id : String) (n : Neighbourhood) :
    (edges.foldl (Neighbourhood.meet id) n).predecessors =
      ((edges.filter fun e => e.target = id).map (·.source)).foldl pushNew n.predecessors := by
  induction edges generalizing n with
  | nil => rfl
  | cons e rest ih =>
    rw [List.foldl_cons, ih]
    by_cases h : e.target = id
    · simp [Neighbourhood.meet, h]
    · simp [Neighbourhood.meet, h, Ne.symm h]

/-! ## The adjacency of a diagram -/

variable (d : Diagram)

/-- The entries before the loop over the edges. -/
theorem find?_declared (id : String) :
    (d.nodes.foldl declare SortedMap.empty).find? id =
      (d.kindOf? id).map fun k => { kind := k } := by
  rw [find?_foldl_declare, SortedMap.find?_empty, Option.none_or]
  unfold Diagram.kindOf? Diagram.node?
  rw [Option.map_map]
  rfl

/-- The edges that the loop enters are those between nodes. -/
theorem joins_declared (e : DiagramEdge) :
    joins (d.nodes.foldl declare SortedMap.empty) e =
      ((d.kindOf? e.source).isSome && (d.kindOf? e.target).isSome) := by
  unfold joins SortedMap.contains
  rw [find?_declared, find?_declared, Option.isSome_map, Option.isSome_map]

theorem find?_ofDiagram (id : String) :
    (ofDiagram d).find? id = (d.kindOf? id).map fun k =>
      d.linkingEdges.foldl (Neighbourhood.meet id) { kind := k } := by
  unfold ofDiagram Diagram.linkingEdges
  rw [find?_foldl_link, find?_declared, Option.map_map,
    List.filter_congr fun e _ => joins_declared d e]
  rfl

theorem kind?_ofDiagram (id : String) : (ofDiagram d).kind? id = d.kindOf? id := by
  unfold kind?
  rw [find?_ofDiagram, Option.map_map]
  cases d.kindOf? id with
  | none => rfl
  | some k => exact congrArg some (kind_foldl_meet _ _ _)

/-- The successors of an id are the targets of its edges, each at the place of the first one. -/
theorem successors_ofDiagram (id : String) :
    (ofDiagram d).successors id =
      ((d.linkingEdges.filter fun e => e.source = id).map (·.target)).foldl pushNew [] := by
  unfold successors
  rw [find?_ofDiagram, Option.map_map]
  cases h : d.kindOf? id with
  | some k => exact successors_foldl_meet _ _ _
  | none =>
    -- no edge between nodes starts at an id of no node
    have hnil : (d.linkingEdges.filter fun e => e.source = id) = [] := by
      refine List.filter_eq_nil_iff.mpr fun e he hid => ?_
      have hend := (Diagram.isSome_of_mem_linkingEdges he).1
      rw [of_decide_eq_true hid, h] at hend
      cases hend
    rw [hnil]
    rfl

/-- The predecessors of an id are the sources of the edges to it, each at the place of the first
one. -/
theorem predecessors_ofDiagram (id : String) :
    (ofDiagram d).predecessors id =
      ((d.linkingEdges.filter fun e => e.target = id).map (·.source)).foldl pushNew [] := by
  unfold predecessors
  rw [find?_ofDiagram, Option.map_map]
  cases h : d.kindOf? id with
  | some k => exact predecessors_foldl_meet _ _ _
  | none =>
    have hnil : (d.linkingEdges.filter fun e => e.target = id) = [] := by
      refine List.filter_eq_nil_iff.mpr fun e he hid => ?_
      have hend := (Diagram.isSome_of_mem_linkingEdges he).2
      rw [of_decide_eq_true hid, h] at hend
      cases hend
    rw [hnil]
    rfl

theorem nodup_successors (id : String) : ((ofDiagram d).successors id).Nodup := by
  rw [successors_ofDiagram]
  exact nodup_foldl_pushNew _ List.nodup_nil

theorem nodup_predecessors (id : String) : ((ofDiagram d).predecessors id).Nodup := by
  rw [predecessors_ofDiagram]
  exact nodup_foldl_pushNew _ List.nodup_nil

variable {d}

/-- **The successors of a node are the ends of the edges from it to nodes.** -/
theorem mem_successors_iff {a b : String} :
    b ∈ (ofDiagram d).successors a ↔ d.HasEdge a b := by
  rw [successors_ofDiagram, mem_foldl_pushNew, List.mem_map, Diagram.hasEdge_iff]
  constructor
  · rintro (h | ⟨e, he, rfl⟩)
    · cases h
    · obtain ⟨he, hs⟩ := List.mem_filter.mp he
      exact ⟨e, he, of_decide_eq_true hs, rfl⟩
  · rintro ⟨e, he, hs, rfl⟩
    exact .inr ⟨e, List.mem_filter.mpr ⟨he, decide_eq_true hs⟩, rfl⟩

/-- **The predecessors of a node are the beginnings of the edges to it from nodes.** -/
theorem mem_predecessors_iff {a b : String} :
    a ∈ (ofDiagram d).predecessors b ↔ d.HasEdge a b := by
  rw [predecessors_ofDiagram, mem_foldl_pushNew, List.mem_map, Diagram.hasEdge_iff]
  constructor
  · rintro (h | ⟨e, he, rfl⟩)
    · cases h
    · obtain ⟨he, ht⟩ := List.mem_filter.mp he
      exact ⟨e, he, rfl, of_decide_eq_true ht⟩
  · rintro ⟨e, he, rfl, ht⟩
    exact .inr ⟨e, List.mem_filter.mpr ⟨he, decide_eq_true ht⟩, rfl⟩

/-- The first predecessor that passes a test begins the first edge to the node whose beginning
passes it. -/
theorem find?_predecessors (test : String → Bool) (id : String) :
    ((ofDiagram d).predecessors id).find? test =
      (d.linkingEdges.find? fun e => e.target == id && test e.source).map (·.source) := by
  rw [predecessors_ofDiagram, find?_foldl_pushNew, List.find?_nil, Option.none_or, List.find?_map,
    List.find?_filter]
  refine congrArg (Option.map _) (List.find?_congr fun e _ => ?_)
  rw [Bool.eq_iff_iff]
  simp

/-! ## The order of neighbours -/

/-- The first edge between two nodes that are joined is also the first one that joins nodes. -/
theorem findIdx_eq_firstEdge {a b : String} (h : d.HasEdge a b) {test : DiagramEdge → Bool}
    (htest : ∀ e, test e = true ↔ (e.source = a ∧ e.target = b) ∧
      (d.kindOf? e.source).isSome = true ∧ (d.kindOf? e.target).isSome = true) :
    d.edges.findIdx test = d.firstEdge a b := by
  unfold Diagram.firstEdge
  refine congrArg (List.findIdx · d.edges) (funext fun e => ?_)
  rw [Bool.eq_iff_iff, htest, Bool.and_eq_true, beq_iff_eq, beq_iff_eq]
  refine ⟨And.left, ?_⟩
  rintro ⟨rfl, rfl⟩
  exact ⟨⟨rfl, rfl⟩, Diagram.isSome_kindOf?.mpr h.2.1, Diagram.isSome_kindOf?.mpr h.2.2⟩

/-- **The successors of a node stand in the order of the first edges to them.** -/
theorem successors_pairwise (d : Diagram) (a : String) :
    ((ofDiagram d).successors a).Pairwise fun x y => d.firstEdge a x < d.firstEdge a y := by
  have horder := foldl_pushNew_pairwise
    ((d.linkingEdges.filter fun e => e.source = a).map (·.target))
  rw [← successors_ofDiagram] at horder
  refine horder.imp_of_mem fun {x y} hx hy hlt => ?_
  unfold Diagram.linkingEdges at hlt
  rw [List.filter_filter, idxOf_map_filter_lt_iff] at hlt
  rwa [findIdx_eq_firstEdge (mem_successors_iff.mp hx) fun e => by simp; tauto,
    findIdx_eq_firstEdge (mem_successors_iff.mp hy) fun e => by simp; tauto] at hlt

/-- **The predecessors of a node stand in the order of the first edges from them.** -/
theorem predecessors_pairwise (d : Diagram) (b : String) :
    ((ofDiagram d).predecessors b).Pairwise fun x y => d.firstEdge x b < d.firstEdge y b := by
  have horder := foldl_pushNew_pairwise
    ((d.linkingEdges.filter fun e => e.target = b).map (·.source))
  rw [← predecessors_ofDiagram] at horder
  refine horder.imp_of_mem fun {x y} hx hy hlt => ?_
  unfold Diagram.linkingEdges at hlt
  rw [List.filter_filter, idxOf_map_filter_lt_iff] at hlt
  rwa [findIdx_eq_firstEdge (mem_predecessors_iff.mp hx) fun e => by simp; tauto,
    findIdx_eq_firstEdge (mem_predecessors_iff.mp hy) fun e => by simp; tauto] at hlt

/-- **The adjacency of a diagram is exact.** A neighbour is listed iff an edge joins the two nodes,
at both ends of it alike. It is listed once, in the order of the first edges. And the kind of an id
is that of the first node with it. -/
theorem ofDiagram_exact (d : Diagram) (a b : String) :
    (b ∈ (ofDiagram d).successors a ↔ a ∈ (ofDiagram d).predecessors b) ∧
      (a ∈ (ofDiagram d).predecessors b ↔ d.HasEdge a b) ∧
      ((ofDiagram d).successors a).Nodup ∧ ((ofDiagram d).predecessors b).Nodup ∧
      ((ofDiagram d).successors a).Pairwise (fun x y => d.firstEdge a x < d.firstEdge a y) ∧
      ((ofDiagram d).predecessors b).Pairwise (fun x y => d.firstEdge x b < d.firstEdge y b) ∧
      (ofDiagram d).kind? a = d.kindOf? a :=
  ⟨mem_successors_iff.trans mem_predecessors_iff.symm, mem_predecessors_iff, nodup_successors d a,
    nodup_predecessors d b, successors_pairwise d a, predecessors_pairwise d b, kind?_ofDiagram d a⟩

/-- A diagram with a second node of one id, an edge from a node to itself, an edge that is there
twice and one that leads nowhere. -/
example :
    let d : Diagram := ⟨[⟨"A", .start, .start ""⟩, ⟨"B", .parallel, .gateway ""⟩,
        ⟨"B", .finish, .finish ""⟩],
      [⟨"e1", "B", "nowhere", {}⟩, ⟨"e2", "A", "B", {}⟩, ⟨"e3", "B", "B", {}⟩,
        ⟨"e4", "A", "B", {}⟩, ⟨"e5", "A", "A", {}⟩]⟩
    (ofDiagram d).successors "A" = ["B", "A"] ∧ (ofDiagram d).predecessors "B" = ["A", "B"] ∧
      (ofDiagram d).successors "B" = ["B"] ∧ (ofDiagram d).kind? "B" = some .parallel := by
  decide

end Adjacency

end ApprovalFlow
