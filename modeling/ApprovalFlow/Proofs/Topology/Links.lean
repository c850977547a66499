import ApprovalFlow.Proofs.Definition.Table
import ApprovalFlow.Proofs.Diagram.Adjacency
import ApprovalFlow.Topology.Basic

/-!
# Links of a topology, in closed form

A topology is filled by two loops. The first enters every node that is no proxy under each of its
sources, the second turns the links round. Both add an id to a list unless it is there, so both are
one statement: what is listed under a key after the loop are the ids that the loop entered there, in
the order of the loop.

- `Topology.listed`, `Topology.sources`: what is listed under a key, and where a node is entered.
- `Topology.listed_foldl`: **a loop that enters at most one id in each round lists the ids of the
  rounds.**
- `Topology.next_ofNodes`: the successors of an id, as a choice of nodes in their order.
- `Topology.mem_prev_ofNodes_iff`, `Topology.prev_ofNodes_pairwise`: the predecessors are the links
  turned round, in ascending order.
- `Topology.contains_ofNodes_iff`: the ids that a topology knows.
- `Topology.businessSources_of_business`, `Topology.businessSources_of_bridge`: the sources of a
  link from a node that is no proxy, and from a proxy with one predecessor that is none.
-/

namespace ApprovalFlow

namespace Topology

open Adjacency (pushNew mem_pushNew pushNew_of_mem pushNew_of_notMem)

/-- What is listed under a key. -/
def listed (m : SortedMap String (List String)) (k : String) : List String := (m.find? k).getD []

/-- The ids under which a node is entered: those from which its predecessors come. -/
def sources (nodes : NodeTable) (n : ProcessNode) : List String :=
  n.predecessorIds.flatMap (businessSources nodes)

/-! ## Entering -/

theorem listed_alter (m : SortedMap String (List String)) (k k' : String)
    (f : Option (List String) → List String) :
    listed (m.alter k f) k' = if k' = k then f (m.find? k) else listed m k' := by
  unfold listed
  rw [SortedMap.find?_alter]
  split_ifs <;> rfl

theorem listed_enter (m : SortedMap String (List String)) (k s k' : String) :
    listed (enter m k s) k' = if k' = k then pushNew (listed m k) s else listed m k' :=
  listed_alter m k k' _

/-- Entering one id under several keys, however often a key is among them. -/
theorem listed_foldl_enter (keys : List String) (m : SortedMap String (List String))
    (s k : String) :
    listed (keys.foldl (fun m k => enter m k s) m) k =
      if k ∈ keys then pushNew (listed m k) s else listed m k := by
  induction keys generalizing m with
  | nil => rfl
  | cons k' rest ih =>
    rw [List.foldl_cons, ih, listed_enter]
    by_cases hk : k = k'
    · subst hk
      have hin : s ∈ pushNew (listed m k) s := mem_pushNew.mpr (.inr rfl)
      rw [if_pos rfl, pushNew_of_mem hin, ite_self, if_pos List.mem_cons_self]
    · rw [if_neg hk]
      simp only [List.mem_cons, hk, false_or]

/-! ## Loops that enter -/

/-- **A loop lists what its rounds enter.** If a round enters at most its own id, and only under
keys of its own, then after the loop a key lists what it did before, and then the ids of the rounds
that enter under it, in their order. -/
theorem listed_foldl {α : Type}
    {round : SortedMap String (List String) → α → SortedMap String (List String)}
    (id : α → String) (enters : String → α → Bool)
    (hround : ∀ m a k, listed (round m a) k =
      if enters k a then pushNew (listed m k) (id a) else listed m k)
    (l : List α) (m : SortedMap String (List String)) (k : String) :
    listed (l.foldl round m) k = ((l.filter (enters k)).map id).foldl pushNew (listed m k) := by
  induction l generalizing m with
  | nil => rfl
  | cons a rest ih =>
    rw [List.foldl_cons, ih, hround]
    by_cases h : enters k a
    · rw [if_pos h, List.filter_cons_of_pos h, List.map_cons, List.foldl_cons]
    · rw [if_neg h, List.filter_cons_of_neg h]

/-- Ids that differ are all entered. -/
theorem foldl_pushNew_of_nodup {l acc : List String} (h : (acc ++ l).Nodup) :
    l.foldl pushNew acc = acc ++ l := by
  induction l generalizing acc with
  | nil => exact (List.append_nil acc).symm
  | cons s rest ih =>
    have hs : s ∉ acc := fun hs =>
      (List.nodup_append.mp h).2.2 s hs s List.mem_cons_self rfl
    have happend : acc ++ s :: rest = (acc ++ [s]) ++ rest := by
      rw [List.append_assoc, List.singleton_append]
    rw [List.foldl_cons, pushNew_of_notMem hs, ih (happend ▸ h), happend]

/-! ## Links turned round -/

/-- A round of the turning enters the source under its targets. -/
theorem listed_transpose (m : SortedMap String (List String)) (k : String) :
    listed (transpose m) k = (m.entries.filter fun e => e.2.contains k).map (·.1) := by
  unfold transpose
  rw [listed_foldl Prod.fst fun k e => e.2.contains k]
  · have hkeys : m.keys.Nodup := m.keys_pairwise.imp fun hlt heq => by simp [heq] at hlt
    exact foldl_pushNew_of_nodup (List.Sublist.nodup (List.filter_sublist.map _) hkeys)
  · intro m e k
    rw [listed_foldl_enter]
    simp only [List.contains_iff_mem]

/-- Links lead back where they come from. -/
theorem mem_listed_transpose_iff {m : SortedMap String (List String)} {a b : String} :
    a ∈ listed (transpose m) b ↔ b ∈ listed m a := by
  rw [listed_transpose, List.mem_map]
  constructor
  · rintro ⟨⟨a', l⟩, he, rfl⟩
    obtain ⟨he, hb⟩ := List.mem_filter.mp he
    unfold listed
    rw [SortedMap.mem_entries_iff.mp he]
    exact List.contains_iff_mem.mp hb
  · intro hb
    unfold listed at hb
    cases hfind : m.find? a with
    | none =>
      rw [hfind] at hb
      cases hb
    | some l =>
      rw [hfind] at hb
      exact ⟨(a, l), List.mem_filter.mpr ⟨SortedMap.mem_entries_iff.mpr hfind,
        List.contains_iff_mem.mpr hb⟩, rfl⟩

/-- The ids before an id come in strictly ascending order. -/
theorem listed_transpose_pairwise (m : SortedMap String (List String)) (k : String) :
    (listed (transpose m) k).Pairwise (· < ·) := by
  rw [listed_transpose]
  have hkeys : m.keys.Pairwise (· < ·) := m.keys_pairwise.imp fun hlt => compare_lt_iff_lt.mp hlt
  exact List.Pairwise.sublist (List.filter_sublist.map _) hkeys

/-! ## Topologies of nodes -/

/-- A node that is no proxy is entered under its sources. -/
theorem listed_place (nodes : NodeTable) (m : SortedMap String (List String)) (n : ProcessNode)
    (k : String) :
    listed (place nodes m n) k =
      if !n.isProxy && (sources nodes n).contains k then pushNew (listed m k) n.id
      else listed m k := by
  unfold place
  cases n.isProxy with
  | true => rfl
  | false =>
    have hdeclare : listed (m.alter n.id fun old => old.getD []) k = listed m k := by
      rw [listed_alter]
      split
      · rename_i h
        rw [h]
        rfl
      · rfl
    simp only [Bool.false_eq_true, if_false, Bool.not_false, Bool.true_and, List.contains_iff_mem]
    show listed ((sources nodes n).foldl _ _) k = _
    rw [listed_foldl_enter, hdeclare]

/-- **The successors of an id** are the nodes that have it among their sources, but for the proxies,
in their order. -/
theorem next_ofNodes {nodes : List ProcessNode} (hnodes : (nodes.map (·.id)).Nodup) (a : String) :
    (ofNodes nodes).next a = (nodes.filter fun n =>
      !n.isProxy && (sources (.ofList nodes) n).contains a).map (·.id) := by
  show listed (nodes.foldl (place (.ofList nodes)) SortedMap.empty) a = _
  rw [listed_foldl _ (fun k n => !n.isProxy && (sources (.ofList nodes) n).contains k)
    (listed_place (.ofList nodes))]
  exact foldl_pushNew_of_nodup (List.Sublist.nodup (List.filter_sublist.map _) hnodes)

/-- The predecessors of an id are the ids that have it as a successor. -/
theorem mem_prev_ofNodes_iff {nodes : List ProcessNode} {a b : String} :
    a ∈ (ofNodes nodes).prev b ↔ b ∈ (ofNodes nodes).next a :=
  mem_listed_transpose_iff

theorem prev_ofNodes_pairwise (nodes : List ProcessNode) (b : String) :
    ((ofNodes nodes).prev b).Pairwise (· < ·) :=
  listed_transpose_pairwise _ b

/-! ## Ids of a topology -/

/-- Entering one id under several keys enters these keys. -/
theorem contains_foldl_enter (keys : List String) (m : SortedMap String (List String))
    (s k : String) :
    (keys.foldl (fun m k => enter m k s) m).contains k = (decide (k ∈ keys) || m.contains k) := by
  induction keys generalizing m with
  | nil => rfl
  | cons k' rest ih =>
    rw [List.foldl_cons, ih, enter, SortedMap.contains_alter]
    simp only [List.mem_cons, Bool.decide_or]
    rw [← Bool.or_assoc, Bool.or_comm (decide (k = k'))]

/-- A node that is no proxy enters its id and its sources. -/
theorem contains_place_iff (nodes : NodeTable) (m : SortedMap String (List String))
    (n : ProcessNode) (k : String) :
    (place nodes m n).contains k = true ↔
      m.contains k = true ∨ n.isProxy = false ∧ (n.id = k ∨ k ∈ sources nodes n) := by
  unfold place
  cases n.isProxy with
  | true => simp
  | false =>
    show SortedMap.contains ((sources nodes n).foldl _ _) k = true ↔ _
    rw [contains_foldl_enter, SortedMap.contains_alter]
    simp only [Bool.or_eq_true, decide_eq_true_iff, true_and]
    grind

theorem contains_foldl_place_iff (table : NodeTable) (nodes : List ProcessNode)
    (m : SortedMap String (List String)) (k : String) :
    (nodes.foldl (place table) m).contains k = true ↔
      m.contains k = true ∨ ∃ n ∈ nodes, n.isProxy = false ∧ (n.id = k ∨ k ∈ sources table n) := by
  induction nodes generalizing m with
  | nil => simp
  | cons n rest ih =>
    rw [List.foldl_cons, ih, contains_place_iff]
    simp only [List.mem_cons, exists_eq_or_imp, or_assoc]

/-- **The ids of a topology** are those of the nodes that are no proxies, and of their sources. -/
theorem contains_ofNodes_iff {nodes : List ProcessNode} {k : String} :
    (ofNodes nodes).successors.contains k = true ↔
      ∃ n ∈ nodes, n.isProxy = false ∧ (n.id = k ∨ k ∈ sources (.ofList nodes) n) := by
  have hempty : (SortedMap.empty : SortedMap String (List String)).contains k = false := rfl
  show SortedMap.contains (nodes.foldl (place (.ofList nodes)) SortedMap.empty) k = true ↔ _
  rw [contains_foldl_place_iff, hempty]
  simp only [Bool.false_eq_true, false_or]

/-! ## Sources -/

variable {nodes : NodeTable} {seen rest : List String} {id q : String} {n m : ProcessNode}

/-- A node that is no proxy is a source, if it was not met before. -/
theorem sourcesFrom_cons_of_business (hseen : id ∉ seen) (hn : nodes.find? id = some n)
    (hbusiness : n.isProxy = false) :
    sourcesFrom nodes seen (id :: rest) = id :: sourcesFrom nodes (id :: seen) rest := by
  have hnew : seen.contains id = false := by simpa using hseen
  rw [sourcesFrom, dif_pos hnew]
  split
  · rename_i n' hn'
    obtain rfl := Option.some.inj (hn.symm.trans hn')
    rw [if_neg (Bool.eq_false_iff.mp hbusiness)]
  · rename_i hnone
    rw [hn] at hnone
    cases hnone

/-- A proxy gives way to its predecessors. -/
theorem sourcesFrom_cons_of_proxy (hseen : id ∉ seen) (hn : nodes.find? id = some n)
    (hproxy : n.isProxy = true) :
    sourcesFrom nodes seen (id :: rest) =
      sourcesFrom nodes (id :: seen) (n.predecessorIds ++ rest) := by
  have hnew : seen.contains id = false := by simpa using hseen
  rw [sourcesFrom, dif_pos hnew]
  split
  · rename_i n' hn'
    obtain rfl := Option.some.inj (hn.symm.trans hn')
    rw [if_pos hproxy]
  · rename_i hnone
    rw [hn] at hnone
    cases hnone

/-- A link from a node that is no proxy comes from this node. -/
theorem businessSources_of_business (hn : nodes.find? id = some n) (hbusiness : n.isProxy = false) :
    businessSources nodes id = [id] := by
  unfold businessSources
  rw [sourcesFrom_cons_of_business List.not_mem_nil hn hbusiness, sourcesFrom]

/-- A link from a proxy whose only predecessor is no proxy comes from that predecessor. -/
theorem businessSources_of_bridge (hm : nodes.find? id = some m) (hproxy : m.isProxy = true)
    (hpred : m.predecessorIds = [q]) (hn : nodes.find? q = some n) (hbusiness : n.isProxy = false) :
    businessSources nodes id = [q] := by
  have hne : q ≠ id := by
    rintro rfl
    obtain rfl := Option.some.inj (hm.symm.trans hn)
    rw [hproxy] at hbusiness
    cases hbusiness
  unfold businessSources
  rw [sourcesFrom_cons_of_proxy List.not_mem_nil hm hproxy, hpred, List.append_nil,
    sourcesFrom_cons_of_business (by simpa using hne) hn hbusiness, sourcesFrom]

end Topology

end ApprovalFlow
