import ApprovalFlow.SortedMap
import Mathlib.Data.List.Nodup

/-!
# Look-ups in sorted maps

A sorted map is read in two ways: by looking up one key, and by going through all entries. The
lemmas here relate the two, and say what a map holds that was filled from a list.

- `mem_entries_iff`, `mem_values_iff`, `mem_keys_iff`: **an entry is what a look-up finds.**
- `keys_pairwise`: the keys ascend strictly, so no key is there twice.
- `ext_find?`: **a map is determined by what its look-ups find**, however it was filled.
- `find?_ofList`: of the entries of a list that have one key, the last counts.
- `SortedSet.mem_keys_ofList_iff`: the set of a list has the members of the list.
-/

namespace ApprovalFlow

namespace SortedMap

universe u v

variable {κ : Type u} {α : Type v} [Ord κ]

/-! ## Entries and look-ups -/

@[simp] theorem find?_empty (k : κ) : (empty : SortedMap κ α).find? k = none := rfl

/-- The keys ascend strictly. -/
theorem keys_pairwise (m : SortedMap κ α) :
    m.keys.Pairwise (fun a b => compare a b = .lt) :=
  List.pairwise_map.mpr m.ascending

/-- No entry is there twice. -/
theorem nodup_entries [Std.ReflOrd κ] (m : SortedMap κ α) : m.entries.Nodup :=
  m.ascending.imp fun {a b} hlt heq => by
    have hself : compare b.1 b.1 = .eq := Std.ReflCmp.compare_self
    rw [heq, hself] at hlt
    cases hlt

variable [Std.TransOrd κ] [Std.LawfulEqOrd κ]

/-- In an ascending list the entry of a key is the one that a search for the key finds. -/
theorem find?_entry_of_mem {l : List (κ × α)}
    (hl : l.Pairwise (fun a b => compare a.1 b.1 = .lt)) {e : κ × α} (he : e ∈ l) :
    l.find? (fun e' => compare e.1 e'.1 == .eq) = some e := by
  induction l with
  | nil => cases he
  | cons hd tl ih =>
    obtain ⟨hhd, htl⟩ := List.pairwise_cons.mp hl
    rcases List.mem_cons.mp he with rfl | he
    · exact List.find?_cons_of_pos (by simp)
    · have hgt : compare e.1 hd.1 = .gt := Std.OrientedCmp.gt_of_lt (hhd e he)
      rw [List.find?_cons_of_neg (by simp [hgt])]
      exact ih htl he

/-- **Entries are what look-ups find.** -/
theorem mem_entries_iff {m : SortedMap κ α} {k : κ} {a : α} :
    (k, a) ∈ m.entries ↔ m.find? k = some a := by
  constructor
  · intro h
    unfold find?
    rw [find?_entry_of_mem m.ascending h]
    rfl
  · intro h
    unfold find? at h
    obtain ⟨⟨k', a'⟩, hf, rfl⟩ := Option.map_eq_some_iff.mp h
    have hk : compare k k' = .eq := by simpa using List.find?_some hf
    obtain rfl := Std.LawfulEqCmp.eq_of_compare hk
    exact List.mem_of_find?_eq_some hf

theorem mem_values_iff {m : SortedMap κ α} {a : α} :
    a ∈ m.values ↔ ∃ k, m.find? k = some a := by
  constructor
  · intro h
    obtain ⟨⟨k, a'⟩, he, rfl⟩ := List.mem_map.mp h
    exact ⟨k, mem_entries_iff.mp he⟩
  · rintro ⟨k, h⟩
    exact List.mem_map.mpr ⟨(k, a), mem_entries_iff.mpr h, rfl⟩

theorem mem_keys_iff {m : SortedMap κ α} {k : κ} : k ∈ m.keys ↔ m.contains k = true := by
  unfold contains
  rw [Option.isSome_iff_exists]
  constructor
  · intro h
    obtain ⟨⟨k', a⟩, he, rfl⟩ := List.mem_map.mp h
    exact ⟨a, mem_entries_iff.mp he⟩
  · rintro ⟨a, h⟩
    exact List.mem_map.mpr ⟨(k, a), mem_entries_iff.mpr h, rfl⟩

/-- **A map is determined by what its look-ups find.** -/
theorem ext_find? {m m' : SortedMap κ α} (h : ∀ k, m.find? k = m'.find? k) : m = m' := by
  have hperm : m.entries.Perm m'.entries :=
    (List.perm_ext_iff_of_nodup m.nodup_entries m'.nodup_entries).mpr fun e => by
      rw [mem_entries_iff, mem_entries_iff, h]
  have heq : m.entries = m'.entries :=
    hperm.eq_of_pairwise (fun a b _ _ hab hba =>
      absurd (show compare b.1 a.1 = .lt from hba) (Std.OrientedCmp.not_lt_of_lt hab))
      m.ascending m'.ascending
  cases m
  cases m'
  cases heq
  rfl

/-! ## Look-ups after changes -/

variable [DecidableEq κ]

theorem find?_insertNew (m : SortedMap κ α) (k k' : κ) (a : α) :
    (m.insertNew k a).find? k' =
      if k' = k then some ((m.find? k).getD a) else m.find? k' :=
  m.find?_alter k k' _

/-- A change enters its key and no other. -/
theorem contains_alter (m : SortedMap κ α) (k k' : κ) (f : Option α → α) :
    (m.alter k f).contains k' = (decide (k' = k) || m.contains k') := by
  unfold contains
  rw [find?_alter]
  by_cases h : k' = k
  · rw [if_pos h, decide_eq_true h]
    rfl
  · rw [if_neg h, decide_eq_false h, Bool.false_or]

/-- Filling a map from a list: the last entry of the list with the key counts, and where there is
none, what was in the map before. -/
theorem find?_foldl_insert (l : List (κ × α)) (m : SortedMap κ α) (k : κ) :
    (l.foldl (fun m e => m.insert e.1 e.2) m).find? k =
      ((l.reverse.find? fun e => e.1 = k).map (·.2)).or (m.find? k) := by
  induction l generalizing m with
  | nil => rfl
  | cons hd tl ih =>
    rw [List.foldl_cons, ih, List.reverse_cons, List.find?_append, find?_insert]
    cases tl.reverse.find? fun e => decide (e.1 = k) with
    | some e => rfl
    | none =>
      by_cases h : hd.1 = k
      · simp [h]
      · simp [h, Ne.symm h]

/-- Of the entries of a list that have one key, the last counts. -/
theorem find?_ofList (l : List (κ × α)) (k : κ) :
    (ofList l).find? k = (l.reverse.find? fun e => e.1 = k).map (·.2) := by
  unfold ofList
  rw [find?_foldl_insert, find?_empty, Option.or_none]

/-- If the keys of a list differ, a look-up finds just its entries. -/
theorem find?_ofList_eq_some_iff {l : List (κ × α)} (hl : (l.map (·.1)).Nodup) {k : κ} {a : α} :
    (ofList l).find? k = some a ↔ (k, a) ∈ l := by
  rw [find?_ofList, Option.map_eq_some_iff]
  constructor
  · rintro ⟨⟨k', a'⟩, hf, rfl⟩
    obtain rfl : k' = k := by simpa using List.find?_some hf
    exact List.mem_reverse.mp (List.mem_of_find?_eq_some hf)
  · intro h
    have hmem : (k, a) ∈ l.reverse := List.mem_reverse.mpr h
    obtain ⟨e, hf⟩ := Option.isSome_iff_exists.mp
      (List.find?_isSome.mpr ⟨(k, a), hmem, by simp⟩ :
        (l.reverse.find? fun e => decide (e.1 = k)).isSome)
    have he : e ∈ l := List.mem_reverse.mp (List.mem_of_find?_eq_some hf)
    have hk : e.1 = k := by simpa using List.find?_some hf
    exact ⟨e, hf, congrArg (·.2) (List.inj_on_of_nodup_map hl he h hk)⟩

/-- If the keys of a list differ, the order of its entries does not matter. -/
theorem ofList_perm {l l' : List (κ × α)} (hl : (l.map (·.1)).Nodup) (h : l.Perm l') :
    ofList l = ofList l' := by
  refine ext_find? fun k => Option.ext fun a => ?_
  rw [find?_ofList_eq_some_iff hl, find?_ofList_eq_some_iff ((h.map _).nodup_iff.mp hl), h.mem_iff]

/-- The map of a list holds nothing that is not in the list. -/
theorem mem_of_mem_entries_ofList {l : List (κ × α)} {e : κ × α} (h : e ∈ (ofList l).entries) :
    e ∈ l := by
  have hfind := mem_entries_iff.mp h
  rw [find?_ofList, Option.map_eq_some_iff] at hfind
  obtain ⟨e', hf, hvalue⟩ := hfind
  have hkey : e'.1 = e.1 := by simpa using List.find?_some hf
  rw [← Prod.ext hkey hvalue]
  exact List.mem_reverse.mp (List.mem_of_find?_eq_some hf)

/-- A map is the map of its own entries. -/
theorem ofList_entries (m : SortedMap κ α) : ofList m.entries = m := by
  have hkeys : (m.entries.map (·.1)).Nodup := m.keys_pairwise.imp fun {a b} hlt heq => by
    have hself : compare b b = .eq := Std.ReflCmp.compare_self
    rw [heq, hself] at hlt
    cases hlt
  refine ext_find? fun k => Option.ext fun a => ?_
  rw [find?_ofList_eq_some_iff hkeys, mem_entries_iff]

/-- Of all entries the key has the one that a look-up finds, if it finds one. -/
theorem filter_entries (m : SortedMap κ α) (k : κ) :
    m.entries.filter (fun e => e.1 = k) = (m.find? k).toList.map fun a => (k, a) := by
  have hmem : ∀ e, e ∈ m.entries.filter (fun e => e.1 = k) ↔ e.1 = k ∧ m.find? k = some e.2 := by
    rintro ⟨k', a⟩
    rw [List.mem_filter, mem_entries_iff, decide_eq_true_iff]
    constructor
    · rintro ⟨h, rfl⟩
      exact ⟨rfl, h⟩
    · rintro ⟨rfl, h⟩
      exact ⟨h, rfl⟩
  cases hfind : m.find? k with
  | none =>
    refine List.eq_nil_iff_forall_not_mem.mpr fun e he => ?_
    rw [hmem, hfind] at he
    cases he.2
  | some a =>
    have hperm : (m.entries.filter fun e => e.1 = k).Perm [(k, a)] := by
      refine (List.perm_ext_iff_of_nodup (m.nodup_entries.filter _) (List.nodup_singleton _)).mpr ?_
      rintro ⟨k', a'⟩
      rw [hmem, hfind, List.mem_singleton, Option.some_inj, Prod.mk.injEq, eq_comm (a := a)]
    exact List.perm_singleton.mp hperm

end SortedMap

/-! ## Sets -/

namespace SortedSet

universe u

variable {κ : Type u} [Ord κ] [Std.TransOrd κ] [Std.LawfulEqOrd κ] [DecidableEq κ]

/-- Adding the members of a list adds just these. -/
theorem find?_foldl_add (l : List κ) (s : SortedSet κ) (k : κ) :
    (l.foldl add s).find? k = if k ∈ l then some () else s.find? k := by
  induction l generalizing s with
  | nil => simp
  | cons x rest ih =>
    rw [List.foldl_cons, ih, add, SortedMap.find?_insert]
    by_cases hrest : k ∈ rest
    · simp [hrest]
    · by_cases hx : k = x <;> simp [hrest, hx]

/-- A set is determined by its members. -/
theorem ofList_congr {l l' : List κ} (h : ∀ k, k ∈ l ↔ k ∈ l') : ofList l = ofList l' := by
  refine SortedMap.ext_find? fun k => ?_
  unfold ofList
  rw [find?_foldl_add, find?_foldl_add, if_congr (h k) rfl rfl]

/-- The set of a list has the members of the list. -/
theorem mem_keys_ofList_iff {l : List κ} {k : κ} : k ∈ (ofList l).keys ↔ k ∈ l := by
  unfold ofList
  rw [SortedMap.mem_keys_iff, SortedMap.contains, find?_foldl_add]
  by_cases h : k ∈ l <;> simp [h]

end SortedSet

end ApprovalFlow
