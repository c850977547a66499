import ApprovalFlow.Proofs.Topology.Links

/-!
# Links through proxies

A list of nodes need not come from a diagram: its proxies may form chains and cycles, and a link may
come from a proxy with several predecessors, or from an id of no node. The search for the sources of
a link goes through them by a stack, and looks at no node twice. An id that was seen is dropped with
everything behind it, so what is found is not what can be reached from the stack, but what can be
reached from it past the ids that were seen.

- `Topology.Searches`: the rounds of the search, with the ids that they take from the stack.
- `Topology.exists_searches`: **the search ends, after a round for each link that it follows.**
- `Topology.Passes`: a way over proxies, past some ids, to a node that is none.
- `Topology.Searches.mem_found_iff`: **the search finds the ends of the ways from its stack.**
- `Topology.ComesFrom`: a node comes from an id, by one link or through proxies.
- `Topology.strips_ofNodes`: **a topology of nodes with distinct ids has a link for every way between
  two nodes that are no proxies, and no other.**
-/

namespace ApprovalFlow

namespace Topology

variable {table : NodeTable} {nodes : List ProcessNode} {seen stack taken found : List String}
  {id a b : String} {n m : ProcessNode}

/-! ## Rounds of the search -/

/-- An id that was seen is dropped. -/
theorem sourcesFrom_cons_of_seen (hseen : id ∈ seen) :
    sourcesFrom table seen (id :: stack) = sourcesFrom table seen stack := by
  rw [sourcesFrom, dif_neg (by simp [hseen])]

/-- So is an id of no node. -/
theorem sourcesFrom_cons_of_dangling (hnew : id ∉ seen) (hn : table.find? id = none) :
    sourcesFrom table seen (id :: stack) = sourcesFrom table seen stack := by
  rw [sourcesFrom, dif_pos (by simp [hnew])]
  split
  · rename_i n hsome
    rw [hn] at hsome
    cases hsome
  · rfl

/-- The rounds of the search for the sources of the links on the stack: each takes one id from the
stack, and `found` are the sources in the end. -/
inductive Searches (table : NodeTable) : (seen stack taken found : List String) → Prop
  | done {seen : List String} : Searches table seen [] [] []
  | again {seen stack taken found : List String} {id : String} (h : id ∈ seen)
      (hrest : Searches table seen stack taken found) :
      Searches table seen (id :: stack) (id :: taken) found
  | dangling {seen stack taken found : List String} {id : String} (hnew : id ∉ seen)
      (hn : table.find? id = none) (hrest : Searches table seen stack taken found) :
      Searches table seen (id :: stack) (id :: taken) found
  | proxy {seen stack taken found : List String} {id : String} {n : ProcessNode} (hnew : id ∉ seen)
      (hn : table.find? id = some n) (hproxy : n.isProxy = true)
      (hrest : Searches table (id :: seen) (n.predecessorIds ++ stack) taken found) :
      Searches table seen (id :: stack) (id :: taken) found
  | business {seen stack taken found : List String} {id : String} {n : ProcessNode}
      (hnew : id ∉ seen) (hn : table.find? id = some n) (hbusiness : n.isProxy = false)
      (hrest : Searches table (id :: seen) stack taken found) :
      Searches table seen (id :: stack) (id :: taken) (id :: found)

/-- The links that lead into a node if it is a proxy not seen yet. -/
def linksInto (seen : List String) (n : ProcessNode) : Nat :=
  if n.isProxy = true ∧ n.id ∉ seen then n.predecessorIds.length else 0

/-- The links that lead into the proxies not seen yet. -/
def linksToCome : List ProcessNode → List String → Nat
  | [], _ => 0
  | n :: rest, seen => linksInto seen n + linksToCome rest seen

theorem linksInto_cons_le (id : String) (seen : List String) (n : ProcessNode) :
    linksInto (id :: seen) n ≤ linksInto seen n := by
  unfold linksInto
  by_cases h : n.isProxy = true ∧ n.id ∉ id :: seen
  · rw [if_pos h, if_pos ⟨h.1, fun hseen => h.2 (List.mem_cons_of_mem id hseen)⟩]
  · rw [if_neg h]
    exact Nat.zero_le _

theorem linksToCome_cons_le (nodes : List ProcessNode) (id : String) (seen : List String) :
    linksToCome nodes (id :: seen) ≤ linksToCome nodes seen := by
  induction nodes with
  | nil => exact Nat.le_refl 0
  | cons n rest ih => exact Nat.add_le_add (linksInto_cons_le id seen n) ih

/-- The links into a proxy are to come until it is seen. -/
theorem linksToCome_cons (hn : n ∈ nodes) (hproxy : n.isProxy = true) (hnew : n.id ∉ seen) :
    linksToCome nodes (n.id :: seen) + n.predecessorIds.length ≤ linksToCome nodes seen := by
  induction nodes with
  | nil => cases hn
  | cons m rest ih =>
    show linksInto (n.id :: seen) m + linksToCome rest (n.id :: seen) + n.predecessorIds.length ≤
      linksInto seen m + linksToCome rest seen
    have hle := linksToCome_cons_le rest n.id seen
    have hmle := linksInto_cons_le n.id seen m
    rcases List.mem_cons.mp hn with rfl | hn
    · have hbefore : linksInto seen n = n.predecessorIds.length := if_pos ⟨hproxy, hnew⟩
      have hafter : linksInto (n.id :: seen) n = 0 := if_neg fun h => h.2 List.mem_cons_self
      omega
    · have hrest := ih hn
      omega

/-- **The search ends**: its rounds follow the links on the stack and those into proxies not seen
yet, each once. -/
theorem exists_searches (nodes : List ProcessNode) (seen stack : List String) :
    ∃ taken, Searches (.ofList nodes) seen stack taken (sourcesFrom (.ofList nodes) seen stack) ∧
      taken.length ≤ stack.length + linksToCome nodes seen := by
  induction seen, stack using sourcesFrom.induct (.ofList nodes) with
  | case1 seen =>
    rw [sourcesFrom]
    exact ⟨[], .done, Nat.zero_le _⟩
  | case2 seen id rest hseen n hn hless hproxy ih =>
    obtain ⟨taken, hrest, hlength⟩ := ih
    have hnew : id ∉ seen := by simpa using hseen
    obtain ⟨hmem, rfl⟩ := NodeTable.of_find?_ofList hn
    have hcome := linksToCome_cons hmem hproxy hnew
    rw [sourcesFrom_cons_of_proxy hnew hn hproxy]
    refine ⟨n.id :: taken, .proxy hnew hn hproxy hrest, ?_⟩
    rw [List.length_append] at hlength
    simp only [List.length_cons]
    omega
  | case3 seen id rest hseen n hn hless hproxy ih =>
    obtain ⟨taken, hrest, hlength⟩ := ih
    have hnew : id ∉ seen := by simpa using hseen
    have hbusiness : n.isProxy = false := Bool.eq_false_iff.mpr hproxy
    have hcome := linksToCome_cons_le nodes id seen
    rw [sourcesFrom_cons_of_business hnew hn hbusiness]
    refine ⟨id :: taken, .business hnew hn hbusiness hrest, ?_⟩
    simp only [List.length_cons]
    omega
  | case4 seen id rest hseen hn ih =>
    obtain ⟨taken, hrest, hlength⟩ := ih
    have hnew : id ∉ seen := by simpa using hseen
    rw [sourcesFrom_cons_of_dangling hnew hn]
    refine ⟨id :: taken, .dangling hnew hn hrest, ?_⟩
    simp only [List.length_cons]
    omega
  | case5 seen id rest hseen ih =>
    obtain ⟨taken, hrest, hlength⟩ := ih
    have hold : id ∈ seen := by simpa using hseen
    rw [sourcesFrom_cons_of_seen hold]
    refine ⟨id :: taken, .again hold hrest, ?_⟩
    simp only [List.length_cons]
    omega

/-! ## What the search finds -/

/-- A way from an id to a node that is no proxy, over proxies none of which was seen. -/
inductive Passes (table : NodeTable) (seen : List String) : String → String → Prop
  | here {id : String} {n : ProcessNode} (hnew : id ∉ seen) (hn : table.find? id = some n)
      (hbusiness : n.isProxy = false) : Passes table seen id id
  | through {id p a : String} {n : ProcessNode} (hnew : id ∉ seen) (hn : table.find? id = some n)
      (hproxy : n.isProxy = true) (hp : p ∈ n.predecessorIds) (hrest : Passes table seen p a) :
      Passes table seen id a

/-- Nothing was seen at the beginning of a way. -/
theorem Passes.not_mem (h : Passes table seen id a) : id ∉ seen := by
  cases h with
  | here hnew => exact hnew
  | through hnew => exact hnew

/-- A way begins at a node. -/
theorem Passes.exists_node (h : Passes table seen id a) : ∃ n, table.find? id = some n := by
  cases h with
  | here _ hn => exact ⟨_, hn⟩
  | through _ hn => exact ⟨_, hn⟩

/-- A way past more ids is a way past fewer. -/
theorem Passes.of_cons (h : Passes table (b :: seen) id a) : Passes table seen id a := by
  induction h with
  | here hnew hn hbusiness => exact .here (fun h => hnew (List.mem_cons_of_mem b h)) hn hbusiness
  | through hnew hn hproxy hp _ ih =>
    exact .through (fun h => hnew (List.mem_cons_of_mem b h)) hn hproxy hp ih

/-- A way leads past a node that is no proxy, or it ends there. -/
theorem Passes.cons_of_business (h : Passes table seen id a) (hm : table.find? b = some m)
    (hbusiness : m.isProxy = false) : a = b ∨ Passes table (b :: seen) id a := by
  induction h with
  | @here id n hnew hn hn' =>
    by_cases hid : id = b
    · exact .inl hid
    · exact .inr (.here (List.not_mem_cons_of_ne_of_not_mem hid hnew) hn hn')
  | @through id p a n hnew hn hproxy hp _ ih =>
    have hid : id ≠ b := by
      rintro rfl
      obtain rfl := Option.some.inj (hn.symm.trans hm)
      rw [hproxy] at hbusiness
      cases hbusiness
    exact ih.imp_right (.through (List.not_mem_cons_of_ne_of_not_mem hid hnew) hn hproxy hp)

/-- A way leads past a proxy, or from a predecessor of it there is a way that does: the part of the
way behind the last time that it comes by. -/
theorem Passes.cons_of_proxy (h : Passes table seen id a) (hm : table.find? b = some m)
    (hproxy : m.isProxy = true) :
    Passes table (b :: seen) id a ∨ ∃ p ∈ m.predecessorIds, Passes table (b :: seen) p a := by
  induction h with
  | @here id n hnew hn hbusiness =>
    have hid : id ≠ b := by
      rintro rfl
      obtain rfl := Option.some.inj (hn.symm.trans hm)
      rw [hproxy] at hbusiness
      cases hbusiness
    exact .inl (.here (List.not_mem_cons_of_ne_of_not_mem hid hnew) hn hbusiness)
  | @through id p a n hnew hn hn' hp _ ih =>
    rcases ih with ih | ih
    · by_cases hid : id = b
      · subst hid
        obtain rfl := Option.some.inj (hn.symm.trans hm)
        exact .inr ⟨p, hp, ih⟩
      · exact .inl (.through (List.not_mem_cons_of_ne_of_not_mem hid hnew) hn hn' hp ih)
    · exact .inr ih

/-- **The search finds the ends of the ways that begin on its stack**, past the ids that were seen
before. -/
theorem Searches.mem_found_iff (h : Searches table seen stack taken found) :
    a ∈ found ↔ ∃ id ∈ stack, Passes table seen id a := by
  induction h with
  | done => simp
  | @again seen stack taken found id hseen _ ih =>
    rw [ih, List.exists_mem_cons_iff]
    exact ⟨.inr, fun h => h.resolve_left fun hid => hid.not_mem hseen⟩
  | @dangling seen stack taken found id hnew hn _ ih =>
    rw [ih, List.exists_mem_cons_iff]
    refine ⟨.inr, fun h => h.resolve_left fun hid => ?_⟩
    obtain ⟨n, hsome⟩ := hid.exists_node
    rw [hn] at hsome
    cases hsome
  | @proxy seen stack taken found id n hnew hn hproxy _ ih =>
    rw [ih]
    simp only [List.mem_append]
    constructor
    · rintro ⟨p, hp | hp, hway⟩
      · exact ⟨id, List.mem_cons_self, .through hnew hn hproxy hp hway.of_cons⟩
      · exact ⟨p, List.mem_cons_of_mem id hp, hway.of_cons⟩
    · rintro ⟨x, hx, hway⟩
      rcases hway.cons_of_proxy hn hproxy with hpast | ⟨p, hp, hpast⟩
      · have hne : x ≠ id := fun heq => hpast.not_mem (heq ▸ List.mem_cons_self)
        exact ⟨x, .inr ((List.mem_cons.mp hx).resolve_left hne), hpast⟩
      · exact ⟨p, .inl hp, hpast⟩
  | @business seen stack taken found id n hnew hn hbusiness _ ih =>
    rw [List.mem_cons, ih]
    constructor
    · rintro (rfl | ⟨x, hx, hway⟩)
      · exact ⟨a, List.mem_cons_self, .here hnew hn hbusiness⟩
      · exact ⟨x, List.mem_cons_of_mem id hx, hway.of_cons⟩
    · rintro ⟨x, hx, hway⟩
      refine (hway.cons_of_business hn hbusiness).imp_right fun hpast => ?_
      have hne : x ≠ id := fun heq => hpast.not_mem (heq ▸ List.mem_cons_self)
      exact ⟨x, (List.mem_cons.mp hx).resolve_left hne, hpast⟩

/-! ## Topologies of nodes -/

/-- Does the node come from the id, by a link of its own or by links through one or more proxies? -/
inductive ComesFrom (nodes : List ProcessNode) : ProcessNode → String → Prop
  | link {n : ProcessNode} {a : String} (h : a ∈ n.predecessorIds) : ComesFrom nodes n a
  | through {n m : ProcessNode} {a : String} (h : m.id ∈ n.predecessorIds) (hm : m ∈ nodes)
      (hproxy : m.isProxy = true) (hrest : ComesFrom nodes m a) : ComesFrom nodes n a

/-- Is the id that of a node which is no proxy? -/
def IsBusiness (nodes : List ProcessNode) (id : String) : Prop :=
  ∃ n ∈ nodes, n.id = id ∧ n.isProxy = false

/-- The topology has the nodes that are no proxies, linked as the list of nodes links them directly
or through proxies. -/
structure Strips (t : Topology) (nodes : List ProcessNode) : Prop where
  /-- What follows an id, if neither is a proxy, are the nodes that come from it. -/
  follows : ∀ a b, b ∈ t.next a ↔
    IsBusiness nodes a ∧ ∃ n ∈ nodes, n.id = b ∧ n.isProxy = false ∧ ComesFrom nodes n a
  /-- The nodes that follow come once each, in the order in which they are listed. -/
  inOrder : ∀ a, (t.next a).Nodup ∧ (t.next a).Sublist (nodes.map (·.id))
  /-- Links lead back where they come from. -/
  turned : ∀ a b, a ∈ t.prev b ↔ b ∈ t.next a
  /-- The nodes before come once each, in ascending order of ids. -/
  ascending : ∀ b, (t.prev b).Nodup ∧ (t.prev b).Pairwise (· < ·)

/-- A way over proxies begins at a link of a node just if the node comes from its end. -/
theorem comesFrom_of_passes {p : String} (h : Passes (.ofList nodes) [] p a)
    (hp : p ∈ n.predecessorIds) : IsBusiness nodes a ∧ ComesFrom nodes n a := by
  induction h generalizing n with
  | @here id m _ hm hbusiness =>
    obtain ⟨hmem, hid⟩ := NodeTable.of_find?_ofList hm
    exact ⟨⟨m, hmem, hid, hbusiness⟩, .link hp⟩
  | @through id q a m _ hm hproxy hq _ ih =>
    obtain ⟨hmem, rfl⟩ := NodeTable.of_find?_ofList hm
    obtain ⟨ha, hrest⟩ := ih hq
    exact ⟨ha, .through hp hmem hproxy hrest⟩

section

variable (hnodes : (nodes.map (·.id)).Nodup)

include hnodes

theorem passes_of_comesFrom (h : ComesFrom nodes n a) (ha : IsBusiness nodes a) :
    ∃ p ∈ n.predecessorIds, Passes (.ofList nodes) [] p a := by
  induction h with
  | @link n a h =>
    obtain ⟨m, hm, rfl, hbusiness⟩ := ha
    exact ⟨m.id, h, .here List.not_mem_nil
      ((NodeTable.find?_ofList_iff hnodes).mpr ⟨hm, rfl⟩) hbusiness⟩
  | @through n m a h hm hproxy _ ih =>
    obtain ⟨p, hp, hway⟩ := ih ha
    exact ⟨m.id, h, .through List.not_mem_nil
      ((NodeTable.find?_ofList_iff hnodes).mpr ⟨hm, rfl⟩) hproxy hp hway⟩

/-- **The sources of a node are the nodes that it comes from.** -/
theorem mem_sources_iff : a ∈ sources (.ofList nodes) n ↔
    IsBusiness nodes a ∧ ComesFrom nodes n a := by
  have hfound (p : String) :
      a ∈ businessSources (.ofList nodes) p ↔ Passes (.ofList nodes) [] p a := by
    obtain ⟨taken, hsearch, -⟩ := exists_searches nodes [] [p]
    rw [businessSources, hsearch.mem_found_iff]
    simp only [List.mem_singleton, exists_eq_left]
  unfold sources
  rw [List.mem_flatMap]
  constructor
  · rintro ⟨p, hp, ha⟩
    exact comesFrom_of_passes ((hfound p).mp ha) hp
  · rintro ⟨ha, hcomes⟩
    obtain ⟨p, hp, hway⟩ := passes_of_comesFrom hnodes hcomes ha
    exact ⟨p, hp, (hfound p).mpr hway⟩

theorem strips_ofNodes : Strips (ofNodes nodes) nodes where
  follows a b := by
    rw [next_ofNodes hnodes]
    simp only [List.mem_map, List.mem_filter, Bool.and_eq_true, Bool.not_eq_true',
      List.contains_iff_mem, mem_sources_iff hnodes]
    constructor
    · rintro ⟨n, ⟨hn, hbusiness, ha, hcomes⟩, rfl⟩
      exact ⟨ha, n, hn, rfl, hbusiness, hcomes⟩
    · rintro ⟨ha, n, hn, rfl, hbusiness, hcomes⟩
      exact ⟨n, ⟨hn, hbusiness, ha, hcomes⟩, rfl⟩
  inOrder a := by
    rw [next_ofNodes hnodes]
    have hsub := (List.filter_sublist (l := nodes) (p := fun n =>
      !n.isProxy && (sources (.ofList nodes) n).contains a)).map (·.id)
    exact ⟨hnodes.sublist hsub, hsub⟩
  turned a b := mem_prev_ofNodes_iff
  ascending b :=
    have hlt := prev_ofNodes_pairwise nodes b
    ⟨hlt.imp ne_of_lt, hlt⟩

end

/-- **The links of nodes with distinct ids, with the proxies taken out**, whatever way the proxies
are linked. The search behind each link comes to an end: it takes no more ids from its stack than
there are links into proxies, and one. -/
theorem links_through_proxies (hnodes : (nodes.map (·.id)).Nodup) :
    Strips (ofNodes nodes) nodes ∧
      ∀ id, ∃ taken, Searches (.ofList nodes) [] [id] taken (businessSources (.ofList nodes) id) ∧
        taken.length ≤ 1 + linksToCome nodes [] :=
  ⟨strips_ofNodes hnodes, fun id => exists_searches nodes [] [id]⟩

/-- Two proxies that lead into each other, and a third without a beginning. -/
def ring : List ProcessNode :=
  [⟨"A", "A", .gateway, [], [], none, [], [], [], false⟩,
    ⟨"proxy_1", "", .approval, [systemApprover], ["proxy_2", "A"], none, [], [], [], false⟩,
    ⟨"proxy_2", "", .approval, [systemApprover], ["ghost", "proxy_1"], none, [], [], [], false⟩,
    ⟨"proxy_3", "", .approval, [systemApprover], ["ghost"], none, [], [], [], false⟩,
    ⟨"B", "B", .gateway, [], ["proxy_3", "proxy_2", "B"], none, [], [], [], false⟩]

/-- The node behind the ring comes from the one before it and from itself, but not from the id of no
node. -/
theorem links_through_proxies_ring :
    Strips (ofNodes ring) ring ∧ linksToCome ring [] = 5 ∧ "B" ∈ (ofNodes ring).next "A" ∧
      "A" ∈ (ofNodes ring).prev "B" ∧ "B" ∈ (ofNodes ring).prev "B" ∧
      "ghost" ∉ (ofNodes ring).prev "B" := by
  have hring : Strips (ofNodes ring) ring := (links_through_proxies (by decide)).1
  have hcomes : ComesFrom ring ring[4] "A" :=
    .through (m := ring[2]) (by decide) (by decide) (by decide)
      (.through (m := ring[1]) (by decide) (by decide) (by decide) (.link (by decide)))
  have hnext : "B" ∈ (ofNodes ring).next "A" := (hring.follows "A" "B").mpr
    ⟨⟨ring[0], by decide, rfl, by decide⟩, ring[4], by decide, rfl, by decide, hcomes⟩
  have hself : "B" ∈ (ofNodes ring).next "B" := (hring.follows "B" "B").mpr
    ⟨⟨ring[4], by decide, rfl, by decide⟩, ring[4], by decide, rfl, by decide, .link (by decide)⟩
  refine ⟨hring, by decide, hnext, (hring.turned "A" "B").mpr hnext,
    (hring.turned "B" "B").mpr hself, fun hghost => ?_⟩
  obtain ⟨⟨n, hn, hid, -⟩, -⟩ := (hring.follows "ghost" "B").mp ((hring.turned _ _).mp hghost)
  have hnone : ∀ n ∈ ring, n.id ≠ "ghost" := by decide
  exact hnone n hn hid

end Topology

end ApprovalFlow
