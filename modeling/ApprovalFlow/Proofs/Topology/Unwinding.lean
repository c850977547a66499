import ApprovalFlow.Proofs.Definition.SystemNodes
import Mathlib.Data.List.Chain
import Mathlib.Data.List.Perm.Subperm

/-!
# The way back to where a person acted

A node of the system leads back to its first predecessor. So the way back from an id is forced, and
a list of predecessors may well lead it in circles: there it is over at the first id that it meets
twice. All that is said of the way back follows from the list of the ids that it leaves behind.

- `Topology.back?`: where the way goes on from an id.
- `Topology.WalksBack`: the rounds of the walk, with the ids left behind. `walksBack_walkBack` and
  `WalksBack.eq`: these are the rounds of `walkBack`.
- `Topology.walksBack_iff`: **the ids left behind are a chain of nodes of the system without a
  repetition**, and the walk ends where the chain would close or cannot go on.
- `Topology.logicalPrev_logicalPrev`: whoever walks back twice gets no further, on a cycle and off.
- `Diagram.Unambiguous.drawn_logicalPrev`: in a compiled definition the walk ends at a drawn node.
- `Topology.logicalPrev_settles`: the walk on every topology, and on those of compiled diagrams.
-/

namespace ApprovalFlow

namespace Topology

variable {nodes : NodeTable} {seen way : List String} {id r a b : String}

/-! ## The rounds of the walk -/

/-- The first predecessor of a node that the system completes. -/
def back? (nodes : NodeTable) (id : String) : Option String :=
  (nodes.find? id).bind fun n => if n.isSystemAuto then n.predecessorIds.head? else none

theorem back?_eq_some_iff : back? nodes a = some b ↔
    ∃ n, nodes.find? a = some n ∧ n.isSystemAuto = true ∧ n.predecessorIds.head? = some b := by
  unfold back?
  simp only [Option.bind_eq_some_iff, Option.ite_none_right_eq_some]

/-- Where the way does not go on, there is no node of the system, or one without predecessors. -/
theorem of_back?_eq_none (h : back? nodes a = none) :
    (∀ n, nodes.find? a = some n → n.isSystemAuto = false) ∨
      ∃ n, nodes.find? a = some n ∧ n.isSystemAuto = true ∧ n.predecessorIds = [] := by
  cases hfind : nodes.find? a with
  | none => exact .inl nofun
  | some n =>
    cases hauto : n.isSystemAuto with
    | false => exact .inl fun m hm => Option.some.inj hm ▸ hauto
    | true =>
      refine .inr ⟨n, rfl, hauto, ?_⟩
      unfold back? at h
      rwa [hfind, Option.bind_some, if_pos hauto, List.head?_eq_none_iff] at h

/-- One round of the walk. -/
theorem walkBack_eq (nodes : NodeTable) (seen : List String) (id : String) :
    walkBack nodes seen id =
      if id ∈ seen then id else ((back? nodes id).map (walkBack nodes (id :: seen))).getD id := by
  rw [walkBack]
  by_cases hseen : id ∈ seen
  · rw [if_pos hseen, dif_neg (by simp [hseen])]
  · rw [if_neg hseen, dif_pos (by simp [hseen])]
    split
    · rename_i n hn
      have hback : back? nodes id = if n.isSystemAuto then n.predecessorIds.head? else none := by
        unfold back?
        rw [hn, Option.bind_some]
      rw [hback]
      cases n.isSystemAuto with
      | false => rfl
      | true => cases n.predecessorIds <;> rfl
    · rename_i hn
      have hback : back? nodes id = none := by
        unfold back?
        rw [hn, Option.bind_none]
      rw [hback]
      rfl

/-- The walk from an id, with the ids that its rounds leave behind and the id where it ends. `seen`
are the ids left behind before. -/
inductive WalksBack (nodes : NodeTable) :
    (seen : List String) → (id : String) → (way : List String) → (r : String) → Prop
  | seen {seen : List String} {id : String} (h : id ∈ seen) : WalksBack nodes seen id [] id
  | stop {seen : List String} {id : String} (h : back? nodes id = none) :
      WalksBack nodes seen id [] id
  | back {seen way : List String} {id b r : String} (hnew : id ∉ seen)
      (hback : back? nodes id = some b) (hrest : WalksBack nodes (id :: seen) b way r) :
      WalksBack nodes seen id (id :: way) r

/-- The rounds lead to where the walk ends. -/
theorem WalksBack.eq (h : WalksBack nodes seen id way r) : walkBack nodes seen id = r := by
  induction h with
  | seen h => rw [walkBack_eq, if_pos h]
  | stop h =>
    rw [walkBack_eq, h]
    exact ite_self _
  | back hnew hback _ ih =>
    rw [walkBack_eq, if_neg hnew, hback]
    exact ih

/-- There is a last round. -/
theorem walksBack_walkBack (nodes : NodeTable) (seen : List String) (id : String) :
    ∃ way, WalksBack nodes seen id way (walkBack nodes seen id) := by
  induction hk : (unseen nodes seen).length using Nat.strong_induction_on generalizing seen id with
  | _ k ih =>
    by_cases hseen : id ∈ seen
    · rw [walkBack_eq, if_pos hseen]
      exact ⟨[], .seen hseen⟩
    · cases hback : back? nodes id with
      | none =>
        rw [walkBack_eq, if_neg hseen, hback]
        exact ⟨[], .stop hback⟩
      | some b =>
        obtain ⟨n, hn, -⟩ := back?_eq_some_iff.mp hback
        have hnew : seen.contains id = false := by simpa using hseen
        have hless := length_unseen_cons (mem_keys_of_find? hn) hnew
        obtain ⟨way, hway⟩ := ih _ (hk ▸ hless) (id :: seen) b rfl
        rw [walkBack_eq, if_neg hseen, hback]
        exact ⟨id :: way, .back hseen hback hway⟩

/-- What a step back keeps holds where the walk ends. -/
theorem WalksBack.kept {P : String → Prop} (h : WalksBack nodes seen id way r) (hid : P id)
    (hstep : ∀ a b, P a → back? nodes a = some b → P b) : P r := by
  induction h with
  | seen | stop => exact hid
  | back _ hback _ ih => exact ih (hstep _ _ hid hback)

/-! ## The ids left behind -/

/-- A chain of steps back, from one id to another: all but the last are those of `way`. -/
structure StepsBack (nodes : NodeTable) (id : String) (way : List String) (r : String) : Prop where
  begins : (way ++ [r]).head? = some id
  linked : (way ++ [r]).IsChain fun a b => back? nodes a = some b

theorem StepsBack.nil (id : String) : StepsBack nodes id [] id := ⟨rfl, .singleton id⟩

theorem stepsBack_cons_iff :
    StepsBack nodes id (a :: way) r ↔
      a = id ∧ ∃ b, back? nodes a = some b ∧ StepsBack nodes b way r := by
  constructor
  · rintro ⟨hbegins, hlinked⟩
    rw [List.cons_append] at hbegins hlinked
    obtain rfl := Option.some.inj hbegins
    obtain ⟨b, hb⟩ : ∃ b, (way ++ [r]).head? = some b := by
      cases way with
      | nil => exact ⟨r, rfl⟩
      | cons c rest => exact ⟨c, rfl⟩
    exact ⟨rfl, b, (List.isChain_cons.mp hlinked).1 b hb, hb, (List.isChain_cons.mp hlinked).2⟩
  · rintro ⟨rfl, b, hback, hrest⟩
    refine ⟨rfl, List.isChain_cons.mpr ⟨fun y hy => ?_, hrest.linked⟩⟩
    exact Option.some.inj (hrest.begins.symm.trans hy) ▸ hback

/-- **The rounds of the walk leave behind a chain of nodes of the system, each met once.** It cannot
go on, or it would go on to an id met before. -/
theorem walksBack_iff : WalksBack nodes seen id way r ↔
    StepsBack nodes id way r ∧ way.Nodup ∧ (∀ a ∈ way, a ∉ seen) ∧
      (r ∈ way ∨ r ∈ seen ∨ back? nodes r = none) := by
  constructor
  · intro h
    induction h with
    | seen h => exact ⟨.nil _, .nil, nofun, .inr (.inl h)⟩
    | stop h => exact ⟨.nil _, .nil, nofun, .inr (.inr h)⟩
    | back hnew hback _ ih =>
      obtain ⟨hsteps, hnodup, hfresh, hend⟩ := ih
      refine ⟨stepsBack_cons_iff.mpr ⟨rfl, _, hback, hsteps⟩,
        List.nodup_cons.mpr ⟨fun h => hfresh _ h List.mem_cons_self, hnodup⟩, fun a ha => ?_, ?_⟩
      · rcases List.mem_cons.mp ha with rfl | ha
        · exact hnew
        · exact fun h => hfresh a ha (List.mem_cons_of_mem _ h)
      · simp only [List.mem_cons] at hend ⊢
        tauto
  · rintro ⟨hsteps, hnodup, hfresh, hend⟩
    induction way generalizing seen id with
    | nil =>
      obtain rfl := Option.some.inj hsteps.begins
      rcases hend with hway | hseen | hnone
      · cases hway
      · exact .seen hseen
      · exact .stop hnone
    | cons a way ih =>
      obtain ⟨rfl, b, hback, hsteps⟩ := stepsBack_cons_iff.mp hsteps
      obtain ⟨hnew, hnodup⟩ := List.nodup_cons.mp hnodup
      refine .back (hfresh a List.mem_cons_self) hback (ih hsteps hnodup (fun c hc => ?_) ?_)
      · rw [List.mem_cons, not_or]
        exact ⟨fun h => hnew (h ▸ hc), hfresh c (List.mem_cons_of_mem a hc)⟩
      · simp only [List.mem_cons] at hend ⊢
        tauto

/-- The ids left behind are nodes of the system. -/
theorem StepsBack.isSystemAuto (h : StepsBack nodes id way r) (ha : a ∈ way) :
    ∃ n, nodes.find? a = some n ∧ n.isSystemAuto = true := by
  induction way generalizing id with
  | nil => cases ha
  | cons c way ih =>
    obtain ⟨rfl, b, hback, hrest⟩ := stepsBack_cons_iff.mp h
    rcases List.mem_cons.mp ha with rfl | ha
    · obtain ⟨n, hn, hauto, -⟩ := back?_eq_some_iff.mp hback
      exact ⟨n, hn, hauto⟩
    · exact ih hrest ha

/-- From an id left behind the chain goes on to the same end. -/
theorem StepsBack.suffix {before after : List String}
    (h : StepsBack nodes id (before ++ a :: after) r) : StepsBack nodes a (a :: after) r where
  begins := rfl
  linked := by
    have hlinked := h.linked
    rw [List.append_assoc] at hlinked
    exact (List.isChain_append.mp hlinked).2.1

/-! ## Where the walk ends -/

/-- Is the id on a cycle of nodes of the system? -/
def OnSystemCycle (nodes : NodeTable) (id : String) : Prop :=
  ∃ rest, StepsBack nodes id (id :: rest) id ∧
    ∀ a ∈ id :: rest, ∃ n, nodes.find? a = some n ∧ n.isSystemAuto = true

/-- The walk leaves every node behind at most once. -/
theorem WalksBack.length_le (h : WalksBack nodes seen id way r) : way.length ≤ nodes.size := by
  obtain ⟨hsteps, hnodup, -⟩ := walksBack_iff.mp h
  have hsub : way ⊆ nodes.keys := by
    intro a ha
    obtain ⟨n, hn, -⟩ := hsteps.isSystemAuto ha
    exact mem_keys_of_find? hn
  calc way.length ≤ nodes.keys.length := (hnodup.subperm hsub).length_le
    _ = nodes.size := List.length_map _

/-- The walk goes no further than where it ends. If it ended by closing a cycle, the same cycle leads
back there. -/
theorem WalksBack.again (h : WalksBack nodes [] id way r) :
    ∃ way', WalksBack nodes [] r way' r := by
  obtain ⟨hsteps, hnodup, -, hway | hnil | hnone⟩ := walksBack_iff.mp h
  · obtain ⟨before, after, rfl⟩ := List.append_of_mem hway
    exact ⟨r :: after, walksBack_iff.mpr ⟨hsteps.suffix, (List.nodup_append.mp hnodup).2.1,
      fun _ _ => List.not_mem_nil, .inl List.mem_cons_self⟩⟩
  · cases hnil
  · exact ⟨[], .stop hnone⟩

/-- **Walking back twice leads no further than walking back once.** -/
theorem logicalPrev_logicalPrev (t : Topology) (x : String) :
    t.logicalPrev (t.logicalPrev x) = t.logicalPrev x := by
  obtain ⟨way, hway⟩ := walksBack_walkBack t.nodes [] x
  obtain ⟨way', hway'⟩ := hway.again
  exact hway'.eq

/-- The walk ends off the nodes of the system, at one without predecessors, or on a cycle of them. -/
theorem WalksBack.end_cases (h : WalksBack nodes [] id way r) :
    (∀ n, nodes.find? r = some n → n.isSystemAuto = false) ∨
      (∃ n, nodes.find? r = some n ∧ n.isSystemAuto = true ∧ n.predecessorIds = []) ∨
      OnSystemCycle nodes r := by
  obtain ⟨hsteps, -, -, hway | hnil | hnone⟩ := walksBack_iff.mp h
  · obtain ⟨before, after, rfl⟩ := List.append_of_mem hway
    exact .inr (.inr ⟨after, hsteps.suffix, fun a ha => hsteps.suffix.isSystemAuto ha⟩)
  · cases hnil
  · rcases of_back?_eq_none hnone with hperson | hfirst
    · exact .inl hperson
    · exact .inr (.inl hfirst)

end Topology

/-! ## Compiled diagrams -/

namespace Diagram

variable {options : CompilerOptions} {name : String} {d : Diagram} {p : ProcessDefinition}

/-- Is the id that of a drawn node? -/
def Drawn (d : Diagram) (id : String) : Prop := ∃ n ∈ d.nodes, n.id = id

section

variable (hd : d.Unambiguous) (hc : d.compile options name = .ok p)

include hd hc

/-- From a drawn node the way leads to a drawn one: an automation step and a step of people have no
proxies among their predecessors. -/
theorem Unambiguous.drawn_of_back? {a b : String} (ha : d.Drawn a)
    (hback : Topology.back? p.table a = some b) : d.Drawn b := by
  obtain ⟨n, hn, rfl⟩ := ha
  obtain ⟨m, hfind, hl⟩ := exists_find?_lowered hd.distinct hc hn fun q s _ =>
    (hd.ne_proxyId hn q s).symm
  obtain ⟨m', hfind', hauto, hfirst⟩ := Topology.back?_eq_some_iff.mp hback
  obtain rfl := Option.some.inj (hfind.symm.trans hfind')
  have hplain : n.kind.isConcurrent = false := by
    rcases (Blueprint.isSystemAuto_of_lower hl).mp hauto with hkind | ⟨hkind, -⟩ <;>
    · rw [hkind]
      rfl
  obtain ⟨q, hq, hentry⟩ := ((Blueprint.lowers_of_lower hl).mem_predecessorIds_iff hd.distinct
    hn).mp (List.mem_of_head? hfirst)
  have hdirect : d.entryId q n.id = q := by
    unfold entryId
    rw [bridges_eq_false hd.distinct hn hplain]
    rfl
  exact hentry ▸ hdirect.symm ▸ hq.2.1

/-- From a proxy the way leads to the beginning of its edge. -/
theorem Unambiguous.back?_proxy {m : ProcessNode} (hm : m ∈ p.nodes) (hproxy : d.Synthesised m) :
    ∃ q, Topology.back? p.table m.id = some q ∧ d.Drawn q := by
  have hfind : p.table.find? m.id = some m :=
    (NodeTable.find?_ofList_iff (hd.nodup_ids hc)).mpr ⟨hm, rfl⟩
  obtain ⟨n, -, q, hq, rfl⟩ := hproxy
  exact ⟨q, Topology.back?_eq_some_iff.mpr ⟨_, hfind, rfl, rfl⟩, hq.1.2.1⟩

/-- **From any node of a compiled definition the way leads to a drawn one.** -/
theorem Unambiguous.drawn_logicalPrev {m : ProcessNode} (hm : m ∈ p.nodes) :
    d.Drawn ((Topology.ofNodes p.nodes).logicalPrev m.id) := by
  obtain ⟨way, hway⟩ := Topology.walksBack_walkBack p.table [] m.id
  show d.Drawn (Topology.walkBack p.table [] m.id)
  rcases (hd.mem_nodes_iff hc).mp hm with ⟨n, hn, hl⟩ | hproxy
  · exact hway.kept ⟨n, hn, (Blueprint.lowers_of_lower hl).id.symm⟩ fun _ _ =>
      hd.drawn_of_back? hc
  · obtain ⟨q, hback, hq⟩ := hd.back?_proxy hc hm hproxy
    generalize Topology.walkBack p.table [] m.id = r at hway
    -- the way does not end at the proxy, and from the beginning of its edge it stays drawn
    cases hway with
    | seen h => cases h
    | stop h =>
      rw [hback] at h
      cases h
    | back _ hback' hrest =>
      obtain rfl := Option.some.inj (hback.symm.trans hback')
      exact hrest.kept hq fun _ _ => hd.drawn_of_back? hc

end

end Diagram

/-! ## The walk -/

namespace Topology

/-- **Walking back to where a person acted.** On every topology and from every id the walk leaves no
node behind twice, and it follows first predecessors of nodes of the system. It ends at an id that
is no node of the system, at one without predecessors, or on a cycle of nodes of the system, and
from there it leads no further. If the topology is that of a compiled diagram, it leads from every
node to a drawn one, and not to a bridge that was put in. -/
theorem logicalPrev_settles :
    (∀ (t : Topology) (x : String), ∃ way : List String,
      WalksBack t.nodes [] x way (t.logicalPrev x) ∧ way.length ≤ t.nodes.size ∧
        StepsBack t.nodes x way (t.logicalPrev x) ∧ way.Nodup ∧
        ((∀ n, t.node? (t.logicalPrev x) = some n → n.isSystemAuto = false) ∨
          (∃ n, t.node? (t.logicalPrev x) = some n ∧ n.isSystemAuto = true ∧
            n.predecessorIds = []) ∨
          OnSystemCycle t.nodes (t.logicalPrev x)) ∧
        t.logicalPrev (t.logicalPrev x) = t.logicalPrev x) ∧
      ∀ (d : Diagram) (options : CompilerOptions) (name : String) (p : ProcessDefinition),
        d.Unambiguous → d.compile options name = .ok p → ∀ x ∈ p.nodes,
          d.Drawn ((ofNodes p.nodes).logicalPrev x.id) ∧
            ∀ m ∈ p.nodes, d.Synthesised m → (ofNodes p.nodes).logicalPrev x.id ≠ m.id := by
  refine ⟨fun t x => ?_, fun d options name p hd hc x hx => ?_⟩
  · obtain ⟨way, hway⟩ := walksBack_walkBack t.nodes [] x
    obtain ⟨hsteps, hnodup, -⟩ := walksBack_iff.mp hway
    exact ⟨way, hway, hway.length_le, hsteps, hnodup, hway.end_cases,
      t.logicalPrev_logicalPrev x⟩
  · have hdrawn := hd.drawn_logicalPrev hc hx
    refine ⟨hdrawn, ?_⟩
    rintro m - ⟨n, -, q, -, rfl⟩ heq
    obtain ⟨n', hn', hid⟩ := hdrawn
    exact hd.ne_proxyId hn' q n.id (hid.trans heq)

/-- Behind a bridge, two automation steps that lead into each other. -/
def conveyor : Diagram where
  nodes := [⟨"S", .start, .start ""⟩, ⟨"C", .condition, .condition ""⟩,
    ⟨"P", .parallel, .gateway ""⟩, ⟨"A", .automation, .automation {}⟩,
    ⟨"B", .automation, .automation {}⟩, ⟨"E", .finish, .finish ""⟩]
  edges := [⟨"e1", "S", "C", {}⟩, ⟨"e2", "C", "P", {}⟩, ⟨"e3", "B", "A", {}⟩,
    ⟨"e4", "P", "A", {}⟩, ⟨"e5", "A", "B", {}⟩, ⟨"e6", "B", "E", {}⟩]

/-- The walk from the bridge ends where the bridge begins, and on the cycle it comes round to where
it began. -/
theorem logicalPrev_settles_conveyor :
    ∃ p, conveyor.compile {} "conveyor" = .ok p ∧
      (ofNodes p.nodes).logicalPrev "proxy_C_P" = "C" ∧
      (ofNodes p.nodes).logicalPrev "A" = "A" ∧
      ∀ x ∈ p.nodes, conveyor.Drawn ((ofNodes p.nodes).logicalPrev x.id) := by
  have hd : conveyor.Unambiguous := by decide
  obtain ⟨p, hp, hbridge, hchoice, hstep, hother⟩ : ∃ p, conveyor.compile {} "conveyor" = .ok p ∧
      back? p.table "proxy_C_P" = some "C" ∧ back? p.table "C" = none ∧
      back? p.table "A" = some "B" ∧ back? p.table "B" = some "A" :=
    ⟨_, rfl, by decide, by decide, by decide, by decide⟩
  have hround : WalksBack p.table [] "A" ["A", "B"] "A" :=
    .back (by decide) hstep (.back (by decide) hother (.seen (by decide)))
  refine ⟨p, hp, (WalksBack.back (by decide) hbridge (.stop hchoice)).eq, hround.eq, fun x hx => ?_⟩
  exact (logicalPrev_settles.2 conveyor {} "conveyor" p hd hp x hx).1

end Topology

end ApprovalFlow
