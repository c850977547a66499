import ApprovalFlow.Topology.Frontier
import Mathlib.Data.Nat.Basic
import Mathlib.Order.Basic

/-!
# The frontier is a priority queue

Whatever the order in which trails enter a frontier, a shortest one comes out. A trail that enters
rises from the last place. When the root is taken out, the last trail falls through the whole heap
before it rises again, so on its way down the heap is in order everywhere but around it.

- `Frontier.Ordered`: no trail is shorter than the one above it.
- `Frontier.OrderedBut`, `Frontier.Rising`: the frontier is ordered but for one place, and ordered
  once the trail there has risen far enough.
- `Frontier.push_perm`, `Frontier.pop?_eq_none_iff`, `Frontier.perm_of_pop?`: trails enter and leave
  one by one, and none is lost.
- `Frontier.ordered_push`, `Frontier.ordered_of_pop?`: **both operations keep the order**.
- `Frontier.le_of_pop?`: **the trail that comes out is a shortest one.**
-/

namespace ApprovalFlow.Frontier

/-- The place above a place. -/
def above (i : Nat) : Nat := (i - 1) / 2

/-- Is no trail shorter than the one above it? -/
def Ordered (f : Frontier) : Prop :=
  ∀ j, 0 < j → j < f.size → lengthAt f (above j) ≤ lengthAt f j

/-- Is the frontier ordered, but for the trail at one place? The trails below this place are still
no shorter than the one above it. -/
structure OrderedBut (f : Frontier) (i : Nat) : Prop where
  apart : ∀ j, 0 < j → j < f.size → j ≠ i → above j ≠ i → lengthAt f (above j) ≤ lengthAt f j
  across : 0 < i → ∀ j, 0 < j → j < f.size → above j = i → lengthAt f (above i) ≤ lengthAt f j

/-- Is the frontier ordered, but for a trail that is too short for its place? -/
structure Rising (f : Frontier) (i : Nat) : Prop extends OrderedBut f i where
  below : ∀ j, 0 < j → j < f.size → above j = i → lengthAt f i ≤ lengthAt f j

variable {f f' : Frontier} {t : Trail} {i j : Nat}

theorem ordered_empty : Ordered #[] := fun j _ hj => absurd hj (Nat.not_lt_zero j)

theorem above_lt (hi : 0 < i) : above i < i := by
  unfold above
  omega

theorem ne_of_above_eq (hj : 0 < j) (h : above j = i) : j ≠ i := by
  have := above_lt hj
  omega

/-! ## Swapping two trails -/

theorem lengthAt_swap (hi : i < f.size) (hj : j < f.size) (k : Nat) :
    lengthAt (f.swapIfInBounds i j) k =
      if k = i then lengthAt f j else if k = j then lengthAt f i else lengthAt f k := by
  unfold lengthAt
  by_cases hk : k < f.size
  · rw [Array.getElem?_eq_getElem (by rwa [Array.size_swapIfInBounds]),
      Array.getElem_swapIfInBounds, Array.getElem?_eq_getElem hi, Array.getElem?_eq_getElem hj,
      Array.getElem?_eq_getElem hk]
    simp only [hi, hj, and_true]
    split_ifs <;> rfl
  · have hnone : (f.swapIfInBounds i j)[k]? = none :=
      Array.getElem?_eq_none (by rw [Array.size_swapIfInBounds]; omega)
    rw [hnone, if_neg (by omega), if_neg (by omega), Array.getElem?_eq_none (Nat.le_of_not_lt hk)]

theorem swap_perm (f : Frontier) (i j : Nat) : (f.swapIfInBounds i j).toList.Perm f.toList := by
  rw [Array.swapIfInBounds_def]
  split
  · split
    · exact (Array.swap_perm _ _).toList
    · exact .refl _
  · exact .refl _

/-! ## Rising -/

theorem rise_perm (f : Frontier) (i : Nat) : (rise f i).toList.Perm f.toList := by
  fun_induction rise f i with
  | case1 => exact .refl _
  | case2 f i _ parent _ ih => exact ih.trans (swap_perm f i parent)
  | case3 => exact .refl _

namespace Rising

/-- A trail has risen far enough if the one above it is no longer than it is. -/
theorem ordered (h : Rising f i) (habove : 0 < i → lengthAt f (above i) ≤ lengthAt f i) :
    Ordered f := by
  intro j hj hsize
  by_cases hji : j = i
  · subst hji
    exact habove hj
  · by_cases hchild : above j = i
    · rw [hchild]
      exact h.below j hj hsize hchild
    · exact h.apart j hj hsize hji hchild

/-- Otherwise the two change places, and the trail goes on from the higher one. -/
theorem swap (h : Rising f i) (hi : i < f.size) (hpos : 0 < i)
    (hshort : lengthAt f i < lengthAt f (above i)) :
    Rising (f.swapIfInBounds i (above i)) (above i) := by
  have hup : above i < i := above_lt hpos
  have hlength := lengthAt_swap hi (hup.trans hi)
  -- a trail beside the two is no shorter than the one that comes down
  have hbeside : ∀ j, 0 < j → j < f.size → j ≠ i → above j = above i →
      lengthAt f (above i) ≤ lengthAt f j := by
    intro j hj hsize hji habove
    rw [← habove]
    exact h.apart j hj hsize hji (by omega)
  refine ⟨⟨?apart, ?across⟩, ?below⟩
  case apart =>
    intro j hj hsize hne hne'
    rw [Array.size_swapIfInBounds] at hsize
    have hji : j ≠ i := fun hji => hne' (hji ▸ rfl)
    rw [hlength, hlength, if_neg hne', if_neg hji, if_neg hne]
    split
    · rename_i hchild
      exact h.across hpos j hj hsize hchild
    · rename_i hchild
      exact h.apart j hj hsize hji hchild
  case across =>
    intro hpos' j hj hsize habove
    rw [Array.size_swapIfInBounds] at hsize
    have hup' : above (above i) < above i := above_lt hpos'
    have hgrand : lengthAt f (above (above i)) ≤ lengthAt f (above i) :=
      h.apart _ hpos' (hup.trans hi) (by omega) (by omega)
    rw [hlength, hlength, if_neg (by omega), if_neg (by omega)]
    split_ifs with hji hja
    · exact hgrand
    · exact absurd hja (ne_of_above_eq hj habove)
    · exact hgrand.trans (hbeside j hj hsize hji habove)
  case below =>
    intro j hj hsize habove
    rw [Array.size_swapIfInBounds] at hsize
    rw [hlength, hlength, if_neg (by omega), if_pos rfl]
    split_ifs with hji hja
    · exact hshort.le
    · exact le_rfl
    · exact hshort.le.trans (hbeside j hj hsize hji habove)

end Rising

theorem ordered_rise (h : Rising f i) (hi : i < f.size) : Ordered (rise f i) := by
  fun_induction rise f i with
  | case1 => exact h.ordered nofun
  | case2 f i hne parent hshort ih =>
    have hpos : 0 < i := Nat.pos_of_ne_zero hne
    refine ih (h.swap hi hpos hshort) ?_
    rw [Array.size_swapIfInBounds]
    exact (above_lt hpos).trans hi
  | case3 f i hne parent hlong => exact h.ordered fun _ => Nat.le_of_not_lt hlong

/-! ## Falling -/

theorem fall_perm (f : Frontier) (i : Nat) : (fall f i).1.toList.Perm f.toList := by
  fun_induction fall f i with
  | case1 f i left _ child ih => exact ih.trans (swap_perm f i child)
  | case2 f i left => exact swap_perm f i left
  | case3 => exact .refl _

/-- A trail changes places with the shorter one of those below it, and the frontier is ordered but
for the lower place. -/
theorem OrderedBut.swap (h : OrderedBut f i) (hj : j < f.size) (hpos : 0 < j) (habove : above j = i)
    (hleast : ∀ k, 0 < k → k < f.size → above k = i → lengthAt f j ≤ lengthAt f k) :
    OrderedBut (f.swapIfInBounds i j) j := by
  have hup : i < j := habove ▸ above_lt hpos
  have hlength := lengthAt_swap (hup.trans hj) hj
  constructor
  case apart =>
    intro k hk hsize hne hne'
    rw [Array.size_swapIfInBounds] at hsize
    rw [hlength, hlength, if_neg hne', if_neg hne]
    split_ifs with hparent hki hki
    · exact absurd hki (ne_of_above_eq hk hparent)
    · exact hleast k hk hsize hparent
    · subst hki
      exact h.across hk j hpos hj habove
    · exact h.apart k hk hsize hki hparent
  case across =>
    intro _ k hk hsize hparent
    rw [Array.size_swapIfInBounds] at hsize
    have hkj : j < k := hparent ▸ above_lt hk
    rw [hlength, hlength, habove, if_pos rfl, if_neg (by omega), if_neg (by omega), ← hparent]
    exact h.apart k hk hsize (by omega) (by omega)

/-- A trail falls to a place with nothing below it. -/
theorem orderedBut_fall (h : OrderedBut f i) (hi : i < f.size) :
    OrderedBut (fall f i).1 (fall f i).2 ∧ (fall f i).2 < f.size ∧
      f.size ≤ 2 * (fall f i).2 + 1 := by
  fun_induction fall f i with
  | case1 f i left hleft child ih =>
    have hchild : child = left ∨ child = left + 1 := by
      unfold child
      split_ifs
      · exact .inl rfl
      · exact .inr rfl
    have hleast : ∀ k, 0 < k → k < f.size → above k = i → lengthAt f child ≤ lengthAt f k := by
      intro k hk _ habove
      have hk : k = left ∨ k = left + 1 := by
        unfold above at habove
        omega
      unfold child
      split_ifs with hshort
      · rcases hk with rfl | rfl
        · exact le_rfl
        · exact hshort.le
      · rcases hk with rfl | rfl
        · exact Nat.le_of_not_lt hshort
        · exact le_rfl
    have habove : above child = i := by
      unfold above
      omega
    have hswap := h.swap (by omega) (by omega) habove hleast
    rw [Array.size_swapIfInBounds] at ih
    exact ih hswap (by omega)
  | case2 f i left hleft hlast =>
    have habove : above left = i := by
      unfold above
      omega
    -- nothing else stands below the place
    have hleast : ∀ k, 0 < k → k < f.size → above k = i → lengthAt f left ≤ lengthAt f k := by
      intro k hk hsize hparent
      have hk : k = left := by
        unfold above at hparent
        omega
      rw [hk]
    exact ⟨h.swap (by omega) (by omega) habove hleast, by omega, by omega⟩
  | case3 f i left hright hleft => exact ⟨h, hi, by omega⟩

/-! ## Entering -/

/-- **A trail that enters is there beside the others.** -/
theorem push_perm (f : Frontier) (t : Trail) : (push f t).toList.Perm (t :: f.toList) := by
  unfold push
  refine (rise_perm _ _).trans ?_
  rw [Array.toList_push]
  exact List.perm_append_singleton t f.toList

theorem lengthAt_push (f : Frontier) (t : Trail) {j : Nat} (hj : j < f.size) :
    lengthAt (Array.push f t) j = lengthAt f j := by
  unfold lengthAt
  rw [Array.getElem?_push_lt hj, Array.getElem?_eq_getElem hj]

theorem ordered_push (h : Ordered f) (t : Trail) : Ordered (push f t) := by
  have hsize : (Array.push f t).size = f.size + 1 := Array.size_push t
  refine ordered_rise ⟨⟨fun j hj hj' hne _ => ?_, fun hpos j hj hj' habove => ?_⟩,
    fun j hj hj' habove => ?_⟩ (by omega)
  · have := above_lt hj
    rw [lengthAt_push f t (by omega), lengthAt_push f t (by omega)]
    exact h j hj (by omega)
  -- nothing stands below the last place
  · have := above_lt hj
    omega
  · have := above_lt hj
    omega

/-! ## Leaving -/

/-- The root is a shortest trail. -/
theorem lengthAt_zero_le (h : Ordered f) (hj : j < f.size) : lengthAt f 0 ≤ lengthAt f j := by
  induction j using Nat.strongRecOn with
  | ind j ih =>
    by_cases hpos : 0 < j
    · have hup := above_lt hpos
      exact (ih (above j) hup (hup.trans hj)).trans (h j hpos hj)
    · obtain rfl : j = 0 := by omega
      exact le_rfl

theorem pop?_singleton (t : Trail) : pop? #[t] = some (t, #[]) := rfl

/-- The first trail comes out. The last one takes its place, falls and rises. -/
theorem pop?_ends (root : Trail) (middle : List Trail) (last : Trail) :
    pop? (root :: middle ++ [last]).toArray =
      some (root, rise (fall (last :: middle).toArray 0).1 (fall (last :: middle).toArray 0).2) := by
  simp only [pop?, List.back?_toArray, List.getLast?_append, List.getLast?_singleton,
    Option.some_or, List.pop_toArray, List.dropLast_concat, List.getElem?_toArray,
    List.getElem?_cons_zero, List.setIfInBounds_toArray, List.set_cons_zero]

/-- A frontier holds nothing, one trail, or a first and a last one. -/
theorem cases_ends (f : Frontier) :
    f = #[] ∨ (∃ t, f = #[t]) ∨ ∃ root middle last, f = (root :: middle ++ [last]).toArray := by
  obtain ⟨l⟩ := f
  rcases List.eq_nil_or_concat l with rfl | ⟨front, last, rfl⟩
  · exact .inl rfl
  · rw [List.concat_eq_append]
    cases front with
    | nil => exact .inr (.inl ⟨last, rfl⟩)
    | cons root middle => exact .inr (.inr ⟨root, middle, last, rfl⟩)

theorem pop?_eq_none_iff : pop? f = none ↔ f = #[] := by
  rcases cases_ends f with rfl | ⟨t, rfl⟩ | ⟨root, middle, last, rfl⟩
  · exact ⟨fun _ => rfl, fun _ => rfl⟩
  · rw [pop?_singleton]
    simp
  · rw [pop?_ends]
    simp

theorem pop?_eq_some (h : pop? f = some (t, f')) :
    (f.toList = [t] ∧ f' = #[]) ∨ ∃ middle last, f.toList = t :: middle ++ [last] ∧
      f' = rise (fall (last :: middle).toArray 0).1 (fall (last :: middle).toArray 0).2 := by
  rcases cases_ends f with rfl | ⟨u, rfl⟩ | ⟨root, middle, last, rfl⟩
  · cases h
  · obtain ⟨rfl, rfl⟩ := Prod.mk.inj (Option.some.inj ((pop?_singleton u).symm.trans h))
    exact .inl ⟨rfl, rfl⟩
  · obtain ⟨rfl, rfl⟩ := Prod.mk.inj (Option.some.inj ((pop?_ends root middle last).symm.trans h))
    exact .inr ⟨middle, last, rfl, rfl⟩

/-- **What was there is what came out and what is left.** -/
theorem perm_of_pop? (h : pop? f = some (t, f')) : f.toList.Perm (t :: f'.toList) := by
  rcases pop?_eq_some h with ⟨hf, rfl⟩ | ⟨middle, last, hf, rfl⟩
  · rw [hf]
  · rw [hf, List.cons_append]
    refine List.Perm.cons t ?_
    have hfall := fall_perm (last :: middle).toArray 0
    exact (List.perm_append_singleton last middle).trans ((rise_perm _ _).trans hfall).symm

theorem getElem?_eq (f : Frontier) (i : Nat) : f[i]? = f.toList[i]? := Array.getElem?_toList.symm

theorem ordered_of_pop? (hf : Ordered f) (h : pop? f = some (t, f')) : Ordered f' := by
  rcases pop?_eq_some h with ⟨-, rfl⟩ | ⟨middle, last, hlist, rfl⟩
  · exact ordered_empty
  · generalize hg : (last :: middle).toArray = g
    have hsize : g.size = middle.length + 1 := by
      rw [← hg]
      rfl
    have hfsize : f.size = middle.length + 2 := by
      rw [← Array.length_toList, hlist]
      simp
    -- but for the root the trails stand where they stood
    have hsame : ∀ j, 0 < j → j < g.size → lengthAt g j = lengthAt f j := by
      intro j hj hsize'
      obtain ⟨k, rfl⟩ : ∃ k, j = k + 1 := ⟨j - 1, by omega⟩
      unfold lengthAt
      rw [getElem?_eq f, hlist, ← hg, List.getElem?_toArray,
        List.getElem?_cons_succ, List.cons_append, List.getElem?_cons_succ,
        List.getElem?_append_left (by omega)]
    have hbut : OrderedBut g 0 := by
      refine ⟨fun j hj hsize' _ habove => ?_, nofun⟩
      have hup := above_lt hj
      rw [hsame j hj hsize', hsame (above j) (Nat.pos_of_ne_zero habove) (hup.trans hsize')]
      exact hf j hj (by omega)
    obtain ⟨hfell, hplace, hbottom⟩ := orderedBut_fall hbut (by omega)
    have hfsize' : (fall g 0).1.size = g.size := (fall_perm g 0).length_eq
    refine ordered_rise ⟨hfell, fun j hj hsize' habove => ?_⟩ (by omega)
    -- nothing stands below the place where the trail ends
    unfold above at habove
    omega

/-- **A shortest trail comes out.** -/
theorem le_of_pop? (hf : Ordered f) (h : pop? f = some (t, f')) {u : Trail} (hu : u ∈ f.toList) :
    t.length ≤ u.length := by
  have hroot : lengthAt f 0 = t.length := by
    have hfirst : f[0]? = some t := by
      rw [getElem?_eq f]
      rcases pop?_eq_some h with ⟨hlist, -⟩ | ⟨middle, last, hlist, -⟩ <;> rw [hlist] <;> rfl
    unfold lengthAt
    rw [hfirst]
    rfl
  obtain ⟨j, hj, rfl⟩ := List.mem_iff_getElem.mp hu
  have hj' : j < f.size := hj
  have hlength : lengthAt f j = (f.toList[j]).length := by
    unfold lengthAt
    rw [Array.getElem?_eq_getElem hj']
    rfl
  rw [← hroot, ← hlength]
  exact lengthAt_zero_le hf hj'

end ApprovalFlow.Frontier
