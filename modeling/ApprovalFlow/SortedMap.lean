/-!
# Sorted maps

Finite maps kept as one strictly ascending list of entries, so that a map is determined by its
contents: two maps that answer every look-up alike are equal, whatever order they were filled in.

- `SortedMap κ α`: the list of entries with the proof that its keys ascend strictly.
- `SortedMap.alter`: the one operation that changes a map, in a single pass; `insert`, `insertNew`
  and `ofList` are instances of it.
- `SortedMap.find?_alter`: what a look-up gives after a change.
- `SortedSet κ`: a map that stores nothing beside its keys.
-/

namespace ApprovalFlow

universe u v

/-- A finite map from `κ` to `α`, as its entries in strictly ascending order of keys. -/
structure SortedMap (κ : Type u) (α : Type v) [Ord κ] where
  /-- The entries, each key once. -/
  entries : List (κ × α)
  /-- Keys ascend strictly. -/
  ascending : entries.Pairwise (fun a b => compare a.1 b.1 = .lt)
  deriving DecidableEq

namespace SortedMap

variable {κ : Type u} {α : Type v} [Ord κ]

/-- The map with no entry. -/
def empty : SortedMap κ α := ⟨[], .nil⟩

instance : EmptyCollection (SortedMap κ α) := ⟨empty⟩

instance : Inhabited (SortedMap κ α) := ⟨empty⟩

/-- The keys, ascending. -/
def keys (m : SortedMap κ α) : List κ := m.entries.map (·.1)

/-- The stored values, in the order of their keys. -/
def values (m : SortedMap κ α) : List α := m.entries.map (·.2)

/-- The number of entries. -/
def size (m : SortedMap κ α) : Nat := m.entries.length

/-- The value stored under `k`. -/
def find? (m : SortedMap κ α) (k : κ) : Option α :=
  (m.entries.find? (fun e => compare k e.1 == .eq)).map (·.2)

/-- Is there an entry under `k`? -/
def contains (m : SortedMap κ α) (k : κ) : Bool := (m.find? k).isSome

/-! ## Changing one entry -/

/-- Replace what an ascending list of entries holds under `k`, at the place where `k` belongs. -/
def alterEntries (k : κ) (f : Option α → α) : List (κ × α) → List (κ × α)
  | [] => [(k, f none)]
  | e :: rest =>
    match compare k e.1 with
    | .lt => (k, f none) :: e :: rest
    | .eq => (e.1, f (some e.2)) :: rest
    | .gt => e :: alterEntries k f rest

/-- After a change at `k` every key is `k` or was there before. -/
theorem key_of_mem_alterEntries {k : κ} {f : Option α → α} {l : List (κ × α)} {e : κ × α}
    (h : e ∈ alterEntries k f l) : e.1 = k ∨ ∃ e' ∈ l, e'.1 = e.1 := by
  induction l with
  | nil =>
    rw [alterEntries, List.mem_singleton] at h
    exact .inl (by rw [h])
  | cons hd tl ih =>
    rw [alterEntries] at h
    split at h
    · rcases List.mem_cons.1 h with rfl | h
      · exact .inl rfl
      · exact .inr ⟨e, h, rfl⟩
    · rcases List.mem_cons.1 h with rfl | h
      · exact .inr ⟨hd, List.mem_cons_self .., rfl⟩
      · exact .inr ⟨e, List.mem_cons_of_mem _ h, rfl⟩
    · rcases List.mem_cons.1 h with rfl | h
      · exact .inr ⟨_, List.mem_cons_self .., rfl⟩
      · rcases ih h with h | ⟨e', he', h⟩
        · exact .inl h
        · exact .inr ⟨e', List.mem_cons_of_mem _ he', h⟩

/-- A change keeps the keys strictly ascending. -/
theorem ascending_alterEntries [Std.TransOrd κ] (k : κ) (f : Option α → α) {l : List (κ × α)}
    (h : l.Pairwise (fun a b => compare a.1 b.1 = .lt)) :
    (alterEntries k f l).Pairwise (fun a b => compare a.1 b.1 = .lt) := by
  induction l with
  | nil => exact List.pairwise_singleton _ _
  | cons hd tl ih =>
    obtain ⟨hhd, htl⟩ := List.pairwise_cons.1 h
    rw [alterEntries]
    split
    · rename_i hlt
      refine List.pairwise_cons.2 ⟨fun a ha => ?_, h⟩
      rcases List.mem_cons.1 ha with rfl | ha
      · exact hlt
      · exact Std.TransCmp.lt_trans hlt (hhd a ha)
    · exact List.pairwise_cons.2 ⟨fun a ha => hhd a ha, htl⟩
    · rename_i hgt
      refine List.pairwise_cons.2 ⟨fun a ha => ?_, ih htl⟩
      rcases key_of_mem_alterEntries ha with hk | ⟨e', he', hk⟩
      · rw [hk]
        exact Std.OrientedCmp.lt_of_gt hgt
      · rw [← hk]
        exact hhd e' he'

/-- Store `f` of what is now under `k`, in place. -/
def alter [Std.TransOrd κ] (m : SortedMap κ α) (k : κ) (f : Option α → α) : SortedMap κ α :=
  ⟨alterEntries k f m.entries, ascending_alterEntries k f m.ascending⟩

/-- Store `a` under `k`, replacing what is there. -/
def insert [Std.TransOrd κ] (m : SortedMap κ α) (k : κ) (a : α) : SortedMap κ α :=
  m.alter k fun _ => a

/-- Store `a` under `k` unless something is there already. -/
def insertNew [Std.TransOrd κ] (m : SortedMap κ α) (k : κ) (a : α) : SortedMap κ α :=
  m.alter k fun old => old.getD a

/-- The map of a list of entries; of entries with one key the last counts. -/
def ofList [Std.TransOrd κ] (l : List (κ × α)) : SortedMap κ α :=
  l.foldl (fun m e => m.insert e.1 e.2) empty

/-! ## Look-ups after a change -/

/-- A look-up in an ascending list does not go past the place of its key. -/
theorem findEntry_eq_none [Std.TransOrd κ] {k : κ} {e : κ × α} {l : List (κ × α)}
    (h : (e :: l).Pairwise (fun a b => compare a.1 b.1 = .lt)) (hk : compare k e.1 = .lt) :
    (e :: l).find? (fun e => compare k e.1 == .eq) = none := by
  refine List.find?_eq_none.2 fun a ha => ?_
  rcases List.mem_cons.1 ha with rfl | ha
  · simp [hk]
  · have := Std.TransCmp.lt_trans hk ((List.pairwise_cons.1 h).1 a ha)
    simp [this]

/-- What is found under `k'` after a change at `k`: the new value if the keys are equal, and
what was there otherwise. -/
theorem find?_alter [Std.TransOrd κ] [Std.LawfulEqOrd κ] [DecidableEq κ] (m : SortedMap κ α)
    (k k' : κ) (f : Option α → α) :
    (m.alter k f).find? k' = if k' = k then some (f (m.find? k)) else m.find? k' := by
  obtain ⟨l, hl⟩ := m
  show Option.map (·.2) (List.find? _ (alterEntries k f l)) =
    if k' = k then some (f (Option.map (·.2) (List.find? _ l))) else Option.map (·.2) (List.find? _ l)
  induction l with
  | nil => by_cases h : k' = k <;> simp [alterEntries, h, Std.LawfulEqCmp.compare_eq_iff_eq]
  | cons hd tl ih =>
    have ih := ih (List.pairwise_cons.1 hl).2
    rw [alterEntries]
    split
    · rename_i hlt
      rw [findEntry_eq_none hl hlt]
      by_cases h : k' = k
      · simp [h]
      · have : (compare k' k == .eq) = false := by
          simpa [Std.LawfulEqCmp.compare_eq_iff_eq] using h
        rw [List.find?_cons_of_neg (by simp [this]), if_neg h]
    · rename_i heq
      have heq := Std.LawfulEqCmp.compare_eq_iff_eq.1 heq
      subst heq
      by_cases h : k' = hd.1
      · simp [h]
      · have : (compare k' hd.1 == .eq) = false := by
          simpa [Std.LawfulEqCmp.compare_eq_iff_eq] using h
        simp [h, this]
    · rename_i hgt
      have hne : (compare k hd.1 == .eq) = false := by simp [hgt]
      by_cases h : k' = k
      · subst h
        rw [List.find?_cons_of_neg (by simp [hne]), ih, List.find?_cons_of_neg (by simp [hne])]
      · rw [if_neg h] at ih ⊢
        cases h' : compare k' hd.1 == .eq
        · rw [List.find?_cons_of_neg (by simp [h']), ih, List.find?_cons_of_neg (by simp [h'])]
        · simp [h']

theorem find?_insert [Std.TransOrd κ] [Std.LawfulEqOrd κ] [DecidableEq κ] (m : SortedMap κ α)
    (k k' : κ) (a : α) : (m.insert k a).find? k' = if k' = k then some a else m.find? k' :=
  m.find?_alter k k' _

end SortedMap

/-! ## Sets -/

/-- A finite set of keys, in ascending order. -/
abbrev SortedSet (κ : Type u) [Ord κ] := SortedMap κ Unit

namespace SortedSet

variable {κ : Type u} [Ord κ] [Std.TransOrd κ]

/-- The set with `k` added. -/
def add (s : SortedSet κ) (k : κ) : SortedSet κ := SortedMap.insert s k ()

/-- The set of a list's members. -/
def ofList (l : List κ) : SortedSet κ := l.foldl add SortedMap.empty

end SortedSet

end ApprovalFlow
