import ApprovalFlow.Proofs.SortedMap
import ApprovalFlow.Proofs.Topology.Frontier
import ApprovalFlow.Topology.Path
import Mathlib.Data.List.Chain
import Mathlib.Data.List.Perm.Subperm

/-!
# Paths are shortest

A search takes trails out of the frontier, one by one, until one of them ends at the goal. What
carries it is an invariant on the trails that were taken out, which are closed, and those that are
still in the frontier: no closed trail is longer than one in the frontier, those in the frontier
differ by at most one link, and every link from the end of a closed trail leads to the end of a
trail that is at most one link longer. So whoever follows a path from the beginning leaves the
closed trails only through the frontier, and by a trail that is no longer than the way so far.

- `Topology.IsPath`, `Topology.IsShortest`: the paths between two ids, and the shortest of them.
- `Topology.exists_handsOn`: what a trail hands on to the frontier.
- `Topology.Searching`: the invariant. `Searching.step` keeps it, and `closed_or_open_of_chain` says
  what it is good for.
- `Topology.answers_search`: **a search finds a shortest path, or there is none.** Its fuel is never
  used up before.
- `Topology.findPath_shortest`: so it is for every topology and any two ids.
-/

namespace ApprovalFlow.Topology

/-- A path from one id to another, both ends included. -/
structure IsPath (t : Topology) (source goal : String) (path : List String) : Prop where
  begins : path.head? = some source
  ends : path.getLast? = some goal
  linked : path.IsChain fun a b => b ∈ t.next a

/-- A path that meets no id twice, and no other path is shorter. -/
structure IsShortest (t : Topology) (source goal : String) (path : List String) : Prop
    extends IsPath t source goal path where
  nodup : path.Nodup
  least : ∀ other, t.IsPath source goal other → path.length ≤ other.length

/-- Is the list a shortest path, or empty because there is no path? -/
def Answers (t : Topology) (source goal : String) (path : List String) : Prop :=
  t.IsShortest source goal path ∨ path = [] ∧ ∀ other, ¬ t.IsPath source goal other

variable {t : Topology} {source goal : String} {seen : List String} {f f' : Frontier}
  {trail u : Trail} {closed : List Trail}

/-! ## Trails -/

/-- Does the trail lead from where the search began to its node, along links and without a
repetition? -/
structure IsTrail (t : Topology) (source : String) (u : Trail) : Prop where
  begins : (u.node :: u.before).getLast? = some source
  linked : (u.node :: u.before).IsChain fun b a => b ∈ t.next a
  nodup : (u.node :: u.before).Nodup

theorem length_path (u : Trail) : u.path.length = u.length + 1 := List.length_reverse

theorem IsTrail.isPath (h : t.IsTrail source u) : t.IsPath source u.node u.path where
  begins := by
    unfold Trail.path
    rw [List.head?_reverse]
    exact h.begins
  ends := by
    unfold Trail.path
    rw [List.getLast?_reverse]
    rfl
  linked := List.isChain_reverse.mpr h.linked

theorem IsTrail.extend (h : t.IsTrail source u) {s : String} (hs : s ∈ t.next u.node)
    (hnew : s ∉ u.node :: u.before) : t.IsTrail source (u.extend s) where
  begins := by
    have hbegins := h.begins
    unfold Trail.extend
    rwa [List.getLast?_cons_cons]
  linked := List.isChain_cons_cons.mpr ⟨hs, h.linked⟩
  nodup := List.nodup_cons.mpr ⟨hnew, h.nodup⟩

/-- A trail begins at the source, or its last link is one of the topology's. -/
theorem IsTrail.mem_links (h : t.IsTrail source u) :
    u.node ∈ source :: t.successors.values.flatten := by
  obtain ⟨node, before⟩ := u
  cases before with
  | nil =>
    have hsource : node = source := Option.some.inj h.begins
    exact hsource ▸ List.mem_cons_self
  | cons a rest =>
    have hlink : node ∈ t.next a := (List.isChain_cons_cons.mp h.linked).1
    unfold next at hlink
    cases hfind : t.successors.find? a with
    | none =>
      rw [hfind] at hlink
      cases hlink
    | some l =>
      rw [hfind] at hlink
      exact List.mem_cons_of_mem _
        (List.mem_flatten.mpr ⟨l, SortedMap.mem_values_iff.mpr ⟨a, hfind⟩, hlink⟩)

/-! ## Handing on -/

/-- What is met and open after a trail handed on to some of its successors, those in `new`. -/
structure HandsOn (targets : List String) (trail : Trail) (seen : List String) (f : Frontier)
    (new seen' : List String) (f' : Frontier) : Prop where
  distinct : new.Nodup
  mem : ∀ s, s ∈ new ↔ s ∈ targets ∧ s ∉ seen
  seen : seen'.Perm (new ++ seen)
  frontier : f'.toList.Perm (new.map trail.extend ++ f.toList)
  ordered : f.Ordered → f'.Ordered

/-- **A trail hands on one trail to each successor that was not met before**, however often the
successor is listed. -/
theorem exists_handsOn (t : Topology) (trail : Trail) (seen : List String) (f : Frontier) :
    ∃ new, HandsOn (t.next trail.node) trail seen f new (t.spread trail seen f).1
      (t.spread trail seen f).2 := by
  unfold spread
  generalize t.next trail.node = targets
  induction targets generalizing seen f with
  | nil => exact ⟨[], .nil, by simp, .refl _, .refl _, id⟩
  | cons s rest ih =>
    simp only [List.foldl_cons]
    by_cases hs : s ∈ seen
    · obtain ⟨new, hrest⟩ := ih seen f
      rw [if_pos (List.contains_iff_mem.mpr hs)]
      refine ⟨new, hrest.distinct, fun x => ?_, hrest.seen, hrest.frontier, hrest.ordered⟩
      rw [hrest.mem, List.mem_cons]
      constructor
      · exact fun h => ⟨.inr h.1, h.2⟩
      · rintro ⟨rfl | hx, hseen⟩
        · exact absurd hs hseen
        · exact ⟨hx, hseen⟩
    · obtain ⟨new, hrest⟩ := ih (s :: seen) (f.push (trail.extend s))
      rw [if_neg (mt List.contains_iff_mem.mp hs)]
      have hnew : s ∉ new := fun h => ((hrest.mem s).mp h).2 List.mem_cons_self
      refine ⟨s :: new, List.nodup_cons.mpr ⟨hnew, hrest.distinct⟩, fun x => ?_,
        hrest.seen.trans List.perm_middle, ?_, fun h => hrest.ordered (f.ordered_push h _)⟩
      · rw [List.mem_cons, hrest.mem, List.mem_cons, List.mem_cons]
        constructor
        · rintro (rfl | ⟨hx, hnot⟩)
          · exact ⟨.inl rfl, hs⟩
          · exact ⟨.inr hx, fun h => hnot (.inr h)⟩
        · rintro ⟨hx, hnot⟩
          by_cases h : x = s
          · exact .inl h
          · exact .inr ⟨hx.resolve_left h, fun h' => h'.elim h hnot⟩
      · exact (hrest.frontier.trans ((f.push_perm _).append_left _)).trans List.perm_middle

/-! ## The invariant -/

/-- The search on its way: `closed` are the trails that were taken out of the frontier, and `seen`
the ids that were met. -/
structure Searching (t : Topology) (source goal : String) (closed : List Trail)
    (seen : List String) (f : Frontier) : Prop where
  ordered : f.Ordered
  distinct : seen.Nodup
  nodes : seen.Perm ((closed ++ f.toList).map (·.node))
  isTrail : ∀ u ∈ closed ++ f.toList, t.IsTrail source u
  before_seen : ∀ u ∈ closed ++ f.toList, ∀ id ∈ u.before, id ∈ seen
  /-- The search began with the source alone. -/
  started : ∃ u ∈ closed ++ f.toList, u.node = source ∧ u.length = 0
  /-- Trails come out by growing length. -/
  later : ∀ u ∈ closed, ∀ v ∈ f.toList, u.length ≤ v.length
  level : ∀ u ∈ f.toList, ∀ v ∈ f.toList, v.length ≤ u.length + 1
  handed_on : ∀ u ∈ closed, ∀ s ∈ t.next u.node,
    ∃ v ∈ closed ++ f.toList, v.node = s ∧ v.length ≤ u.length + 1
  missed : ∀ u ∈ closed, u.node ≠ goal

/-- A search begins at its source. -/
theorem searching_push (t : Topology) (source goal : String) :
    t.Searching source goal [] [source] (Frontier.push #[] ⟨source, []⟩) := by
  have hlist : (Frontier.push #[] ⟨source, []⟩).toList = [⟨source, []⟩] :=
    List.perm_singleton.mp (Frontier.push_perm #[] ⟨source, []⟩)
  have hone : ∀ u ∈ ([] : List Trail) ++ (Frontier.push #[] ⟨source, []⟩).toList,
      u = ⟨source, []⟩ := by
    intro u hu
    rw [hlist] at hu
    exact List.mem_singleton.mp hu
  constructor
  case ordered => exact Frontier.ordered_push Frontier.ordered_empty _
  case distinct => exact List.nodup_singleton source
  case nodes =>
    rw [hlist]
    exact .refl _
  case isTrail =>
    intro u hu
    obtain rfl := hone u hu
    exact ⟨rfl, .singleton _, List.nodup_singleton _⟩
  case before_seen =>
    intro u hu
    obtain rfl := hone u hu
    exact nofun
  case started => exact ⟨⟨source, []⟩, by simp [hlist], rfl, rfl⟩
  case later => exact nofun
  case level =>
    intro u _ v hv
    obtain rfl := hone v hv
    exact Nat.zero_le _
  case handed_on => exact nofun
  case missed => exact nofun

namespace HandsOn

variable {new seen' : List String} {f'' : Frontier}
  (hnew : HandsOn (t.next trail.node) trail seen f' new seen' f'')
  (hpop : f.pop? = some (trail, f'))

include hnew hpop

/-- What was met after a trail handed on is what was met before, and the trails handed on. -/
theorem met_perm (closed : List Trail) :
    (trail :: closed ++ f''.toList).Perm (new.map trail.extend ++ (closed ++ f.toList)) := by
  have hf : (closed ++ f.toList).Perm (trail :: closed ++ f'.toList) :=
    ((Frontier.perm_of_pop? hpop).append_left closed).trans List.perm_middle
  have hswap : (trail :: closed ++ (new.map trail.extend ++ f'.toList)).Perm
      (new.map trail.extend ++ (trail :: closed ++ f'.toList)) :=
    List.perm_append_comm_assoc _ _ _
  exact ((hnew.frontier.append_left _).trans hswap).trans (hf.symm.append_left _)

theorem mem_met (hu : u ∈ closed ++ f.toList) : u ∈ trail :: closed ++ f''.toList :=
  (hnew.met_perm hpop closed).mem_iff.mpr (List.mem_append_right _ hu)

theorem cases_of_met (hu : u ∈ trail :: closed ++ f''.toList) :
    (∃ s ∈ new, u = trail.extend s) ∨ u ∈ closed ++ f.toList := by
  rcases List.mem_append.mp ((hnew.met_perm hpop closed).mem_iff.mp hu) with hu | hu
  · obtain ⟨s, hs, rfl⟩ := List.mem_map.mp hu
    exact .inl ⟨s, hs, rfl⟩
  · exact .inr hu

/-- What is in the frontier now was there before, or was handed on. -/
theorem cases_of_open (hu : u ∈ f''.toList) : u.length = trail.length + 1 ∨ u ∈ f.toList := by
  rcases List.mem_append.mp (hnew.frontier.mem_iff.mp hu) with hu | hu
  · obtain ⟨s, -, rfl⟩ := List.mem_map.mp hu
    exact .inl rfl
  · exact .inr ((Frontier.perm_of_pop? hpop).mem_iff.mpr (List.mem_cons_of_mem trail hu))

end HandsOn

namespace Searching

variable (h : t.Searching source goal closed seen f)

include h

theorem node_mem_seen (hu : u ∈ closed ++ f.toList) : u.node ∈ seen :=
  h.nodes.mem_iff.mpr (List.mem_map_of_mem hu)

/-- The ids on the way to a trail's node were all met. -/
theorem mem_seen_of_mem_way (hu : u ∈ closed ++ f.toList) {id : String}
    (hid : id ∈ u.node :: u.before) : id ∈ seen := by
  rcases List.mem_cons.mp hid with rfl | hid
  · exact h.node_mem_seen hu
  · exact h.before_seen u hu id hid

/-- **Taking a trail out and handing it on keeps the invariant**, as long as the trail does not end
at the goal. -/
theorem step (hpop : f.pop? = some (trail, f')) (hgoal : trail.node ≠ goal)
    {new seen' : List String} {f'' : Frontier}
    (hnew : HandsOn (t.next trail.node) trail seen f' new seen' f'') :
    t.Searching source goal (trail :: closed) seen' f'' := by
  have hin : trail ∈ f.toList := (Frontier.perm_of_pop? hpop).mem_iff.mpr List.mem_cons_self
  have hmet : trail ∈ closed ++ f.toList := List.mem_append_right closed hin
  -- the trails in the frontier are as long as the one taken out, or longer by one link
  have hopen : ∀ u ∈ f''.toList, trail.length ≤ u.length ∧ u.length ≤ trail.length + 1 := by
    intro u hu
    rcases hnew.cases_of_open hpop hu with hlength | hu
    · omega
    · exact ⟨Frontier.le_of_pop? h.ordered hpop hu, h.level trail hin u hu⟩
  constructor
  case ordered => exact hnew.ordered (Frontier.ordered_of_pop? h.ordered hpop)
  case distinct =>
    refine hnew.seen.nodup_iff.mpr (List.nodup_append'.mpr ⟨hnew.distinct, h.distinct, ?_⟩)
    exact fun s hs => ((hnew.mem s).mp hs).2
  case nodes =>
    have hnames (us : List Trail) :
        (new.map trail.extend ++ us).map (·.node) = new ++ us.map (·.node) := by
      rw [List.map_append, List.map_map]
      exact congrArg (· ++ us.map (·.node)) (List.map_id new)
    have hmap := (hnew.met_perm hpop closed).map (·.node)
    rw [hnames] at hmap
    exact (hnew.seen.trans (h.nodes.append_left new)).trans hmap.symm
  case isTrail =>
    intro u hu
    rcases hnew.cases_of_met hpop hu with ⟨s, hs, rfl⟩ | hu
    · obtain ⟨hlink, hseen⟩ := (hnew.mem s).mp hs
      exact (h.isTrail trail hmet).extend hlink (mt (h.mem_seen_of_mem_way hmet) hseen)
    · exact h.isTrail u hu
  case before_seen =>
    intro u hu id hid
    refine hnew.seen.mem_iff.mpr (List.mem_append_right new ?_)
    rcases hnew.cases_of_met hpop hu with ⟨s, hs, rfl⟩ | hu
    · exact h.mem_seen_of_mem_way hmet hid
    · exact h.before_seen u hu id hid
  case started =>
    obtain ⟨u, hu, hstart⟩ := h.started
    exact ⟨u, hnew.mem_met hpop hu, hstart⟩
  case later =>
    intro u hu v hv
    have hv := (hopen v hv).1
    rcases List.mem_cons.mp hu with rfl | hu
    · exact hv
    · exact (h.later u hu trail hin).trans hv
  case level =>
    intro u hu v hv
    have hu := (hopen u hu).1
    have hv := (hopen v hv).2
    omega
  case handed_on =>
    intro u hu s hs
    rcases List.mem_cons.mp hu with rfl | hu
    · -- a successor that was met before was met in time
      by_cases hseen : s ∈ seen
      · obtain ⟨v, hv, rfl⟩ := List.mem_map.mp (h.nodes.mem_iff.mp hseen)
        refine ⟨v, hnew.mem_met hpop hv, rfl, ?_⟩
        rcases List.mem_append.mp hv with hv | hv
        · exact (h.later v hv u hin).trans (Nat.le_succ _)
        · exact h.level u hin v hv
      · have hs : s ∈ new := (hnew.mem s).mpr ⟨hs, hseen⟩
        exact ⟨u.extend s, (hnew.met_perm hpop closed).mem_iff.mpr
          (List.mem_append_left _ (List.mem_map_of_mem hs)), rfl, le_rfl⟩
    · obtain ⟨v, hv, hnode, hlength⟩ := h.handed_on u hu s hs
      exact ⟨v, hnew.mem_met hpop hv, hnode, hlength⟩
  case missed =>
    intro u hu
    rcases List.mem_cons.mp hu with rfl | hu
    · exact hgoal
    · exact h.missed u hu

/-- **Whoever leaves the closed trails along a path does so through the frontier**, and by a trail
that is no longer than the way so far. -/
theorem closed_or_open_of_chain {rest : List String} (hu : u ∈ closed) {goal' : String}
    (hchain : (u.node :: rest).IsChain fun a b => b ∈ t.next a)
    (hends : (u.node :: rest).getLast? = some goal') :
    (∃ v ∈ closed, v.node = goal') ∨ ∃ v ∈ f.toList, v.length ≤ u.length + rest.length := by
  induction rest generalizing u with
  | nil => exact .inl ⟨u, hu, Option.some.inj hends⟩
  | cons s rest ih =>
    obtain ⟨hlink, hchain⟩ := List.isChain_cons_cons.mp hchain
    obtain ⟨v, hv, rfl, hlength⟩ := h.handed_on u hu s hlink
    rw [List.getLast?_cons_cons] at hends
    rw [List.length_cons]
    rcases List.mem_append.mp hv with hv | hv
    · rcases ih hv hchain hends with hclosed | ⟨w, hw, hle⟩
      · exact .inl hclosed
      · exact .inr ⟨w, hw, by omega⟩
    · exact .inr ⟨v, hv, by omega⟩

/-- So a path to the goal is at least as long as some trail in the frontier. -/
theorem exists_open_le {path : List String} (hpath : t.IsPath source goal path) :
    ∃ v ∈ f.toList, v.length + 1 ≤ path.length := by
  obtain ⟨u, hu, hnode, hlength⟩ := h.started
  obtain ⟨rest, rfl⟩ : ∃ rest, path = u.node :: rest := by
    have hbegins := hpath.begins
    cases path with
    | nil => cases hbegins
    | cons a rest => exact ⟨rest, by rw [hnode, Option.some.inj hbegins]⟩
  rcases List.mem_append.mp hu with hu | hu
  · rcases h.closed_or_open_of_chain hu hpath.linked hpath.ends with ⟨v, hv, hgoal⟩ | ⟨v, hv, hle⟩
    · exact absurd hgoal (h.missed v hv)
    · exact ⟨v, hv, by rw [List.length_cons]; omega⟩
  · exact ⟨u, hu, by rw [List.length_cons]; omega⟩

/-- The trail that reaches the goal is a shortest path. -/
theorem isShortest (hpop : f.pop? = some (trail, f')) (hgoal : trail.node = goal) :
    t.IsShortest source goal trail.path := by
  have hin : trail ∈ f.toList := (Frontier.perm_of_pop? hpop).mem_iff.mpr List.mem_cons_self
  have htrail := h.isTrail trail (List.mem_append_right closed hin)
  constructor
  case toIsPath => exact hgoal ▸ htrail.isPath
  case nodup => exact List.nodup_reverse.mpr htrail.nodup
  case least =>
    intro other hother
    obtain ⟨v, hv, hle⟩ := h.exists_open_le hother
    have hleast := Frontier.le_of_pop? h.ordered hpop hv
    rw [length_path]
    omega

/-- An empty frontier means that there is no path. -/
theorem not_isPath (hempty : f = #[]) (path : List String) : ¬ t.IsPath source goal path := by
  intro hpath
  obtain ⟨v, hv, -⟩ := h.exists_open_le hpath
  rw [hempty] at hv
  cases hv

/-- There are no more trails than the links of the topology, and the first one. -/
theorem length_le_searchBound : closed.length + f.size ≤ t.searchBound := by
  have hsub : seen ⊆ source :: t.successors.values.flatten := by
    intro s hs
    obtain ⟨u, hu, rfl⟩ := List.mem_map.mp (h.nodes.mem_iff.mp hs)
    exact (h.isTrail u hu).mem_links
  have hlength : seen.length = closed.length + f.size := by
    rw [h.nodes.length_eq, List.length_map, List.length_append]
    rfl
  rw [← hlength]
  exact (h.distinct.subperm hsub).length_le

end Searching

/-- **A search finds a shortest path, or there is none**, if its fuel lasts for all trails that may
still come out. -/
theorem answers_search {fuel : Nat} (h : t.Searching source goal closed seen f)
    (hfuel : t.searchBound ≤ closed.length + fuel) :
    t.Answers source goal (t.search goal fuel seen f) := by
  induction fuel generalizing closed seen f with
  | zero =>
    have hbound := h.length_le_searchBound
    have hempty : f = #[] := Array.eq_empty_of_size_eq_zero (by omega)
    exact .inr ⟨rfl, h.not_isPath hempty⟩
  | succ fuel ih =>
    unfold search
    cases hpop : f.pop? with
    | none => exact .inr ⟨rfl, h.not_isPath (Frontier.pop?_eq_none_iff.mp hpop)⟩
    | some out =>
      obtain ⟨trail, rest⟩ := out
      dsimp only
      split
      · rename_i hgoal
        exact .inl (h.isShortest hpop hgoal)
      · rename_i hgoal
        obtain ⟨new, hnew⟩ := exists_handsOn t trail seen rest
        refine ih (h.step hpop hgoal hnew) ?_
        rw [List.length_cons]
        omega

/-! ## Paths of a topology -/

/-- What is found between two listed ids. -/
theorem answers_findPath (hsource : t.successors.contains source = true)
    (hgoal : t.successors.contains goal = true) :
    t.Answers source goal (t.findPath source goal) := by
  unfold findPath
  rw [hsource, hgoal]
  exact answers_search (searching_push t source goal) (by simp)

/-- Nothing is found from or to an id that is not listed. -/
theorem findPath_of_not_contains
    (h : ¬ (t.successors.contains source = true ∧ t.successors.contains goal = true)) :
    t.findPath source goal = [] := by
  unfold findPath
  rw [if_neg (by rwa [Bool.and_eq_true])]

/-- Of two listed ids between which there is a path a shortest one is found. -/
theorem isShortest_findPath (hsource : t.successors.contains source = true)
    (hgoal : t.successors.contains goal = true) (hpath : ∃ path, t.IsPath source goal path) :
    t.IsShortest source goal (t.findPath source goal) := by
  obtain ⟨path, hpath⟩ := hpath
  rcases answers_findPath hsource hgoal with h | ⟨-, hnone⟩
  · exact h
  · exact absurd hpath (hnone path)

/-- Whatever is found is a shortest path. -/
theorem isShortest_of_findPath_ne_nil (h : t.findPath source goal ≠ []) :
    t.IsShortest source goal (t.findPath source goal) := by
  by_cases hlisted : t.successors.contains source = true ∧ t.successors.contains goal = true
  · rcases answers_findPath hlisted.1 hlisted.2 with hshortest | ⟨hnil, -⟩
    · exact hshortest
    · exact absurd hnil h
  · exact absurd (findPath_of_not_contains hlisted) h

/-- An id with successors is listed. -/
theorem contains_of_mem_next {a b : String} (h : b ∈ t.next a) :
    t.successors.contains a = true := by
  unfold next at h
  unfold SortedMap.contains
  cases hfind : t.successors.find? a with
  | none =>
    rw [hfind] at h
    cases h
  | some targets => rfl

/-- Between two ids that are linked the path is the link. -/
theorem findPath_of_linked (hlink : goal ∈ t.next source)
    (hgoal : t.successors.contains goal = true) (hne : source ≠ goal) :
    t.findPath source goal = [source, goal] := by
  have hpair : t.IsPath source goal [source, goal] := ⟨rfl, rfl, List.isChain_pair.mpr hlink⟩
  have hshortest := isShortest_findPath (contains_of_mem_next hlink) hgoal ⟨_, hpair⟩
  have hbegins := hshortest.begins
  have hends := hshortest.ends
  have hlength := hshortest.least _ hpair
  match hpath : t.findPath source goal with
  | [] =>
    rw [hpath] at hbegins
    cases hbegins
  | [a] =>
    rw [hpath] at hbegins hends
    exact absurd ((Option.some.inj hbegins).symm.trans (Option.some.inj hends)) hne
  | [a, b] =>
    rw [hpath] at hbegins hends
    obtain rfl : a = source := Option.some.inj hbegins
    obtain rfl : b = goal := Option.some.inj hends
    rfl
  | a :: b :: c :: rest =>
    rw [hpath] at hlength
    simp at hlength

/-- Is there a path between two listed ids? -/
def Connects (t : Topology) (source goal : String) : Prop :=
  t.successors.contains source = true ∧ t.successors.contains goal = true ∧
    ∃ path, t.IsPath source goal path

/-- **A shortest path is found where there is one, and nothing otherwise.** It begins and ends at the
two ids, every two neighbours on it are linked, no id is on it twice, and no other path is shorter.
From a listed id to itself it is that id alone. -/
theorem findPath_shortest (t : Topology) (source goal : String) :
    (t.Connects source goal → t.IsShortest source goal (t.findPath source goal)) ∧
      (¬ t.Connects source goal → t.findPath source goal = []) ∧
      (t.successors.contains source = true → t.findPath source source = [source]) := by
  refine ⟨fun h => isShortest_findPath h.1 h.2.1 h.2.2, fun h => ?_, fun h => ?_⟩
  · by_contra hfound
    have hlisted : t.successors.contains source = true ∧ t.successors.contains goal = true := by
      by_contra hlisted
      exact hfound (findPath_of_not_contains hlisted)
    exact h ⟨hlisted.1, hlisted.2, _, (isShortest_of_findPath_ne_nil hfound).toIsPath⟩
  · have hself : t.IsPath source source [source] := ⟨rfl, rfl, .singleton source⟩
    have hshortest := isShortest_findPath h h ⟨_, hself⟩
    have hlength := hshortest.least _ hself
    have hbegins := hshortest.begins
    -- a path with one id at most
    match hpath : t.findPath source source with
    | [] =>
      rw [hpath] at hbegins
      cases hbegins
    | [a] =>
      rw [hpath] at hbegins
      rw [Option.some.inj hbegins]
    | a :: b :: rest =>
      rw [hpath] at hlength
      simp at hlength

/-- Two ways to the goal, one of them with a way back, and a link to an id that is not listed. -/
def roundabout : Topology :=
  .ofGraph SortedMap.empty
    (.ofList [("S", ["A", "B"]), ("A", ["S", "C"]), ("B", ["G", "out"]), ("C", ["G"]), ("G", [])])

/-- A path to the goal is found, none back, and the beginning alone from itself. -/
theorem findPath_shortest_roundabout :
    roundabout.Connects "S" "G" ∧
      roundabout.IsShortest "S" "G" (roundabout.findPath "S" "G") ∧
      ¬ roundabout.Connects "S" "out" ∧ roundabout.findPath "S" "out" = [] ∧
      roundabout.findPath "S" "S" = ["S"] := by
  have hpath : roundabout.IsPath "S" "G" ["S", "B", "G"] :=
    ⟨rfl, rfl, by decide⟩
  have hconnects : roundabout.Connects "S" "G" := ⟨by decide, by decide, _, hpath⟩
  have hout : ¬ roundabout.Connects "S" "out" := fun h => absurd h.2.1 (by decide)
  exact ⟨hconnects, (findPath_shortest roundabout "S" "G").1 hconnects, hout,
    (findPath_shortest roundabout "S" "out").2.1 hout,
    (findPath_shortest roundabout "S" "out").2.2 (by decide)⟩

end ApprovalFlow.Topology
