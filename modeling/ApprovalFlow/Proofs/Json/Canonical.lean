import ApprovalFlow.Json.Basic
import ApprovalFlow.Proofs.SortedMap

/-!
# Canonical documents

A document in canonical form has the members of each object in ascending order of their names, and
no name twice. Bringing a document into this form twice is bringing it there once.

- `Json.canonicalItems_eq`, `Json.canonicalMembers_eq`: the form is taken part by part.
- `Json.canonical_canonical`: **a canonical form is its own canonical form.**
-/

namespace ApprovalFlow.Json

theorem canonicalItems_eq (items : List Json) : canonicalItems items = items.map canonical := by
  induction items with
  | nil => rfl
  | cons j rest ih => rw [canonicalItems, ih, List.map_cons]

theorem canonicalMembers_eq (members : List (String × Json)) :
    canonicalMembers members = members.map fun m => (m.1, m.2.canonical) := by
  induction members with
  | nil => rfl
  | cons m rest ih => rw [canonicalMembers, ih, List.map_cons]

theorem canonical_array (items : List Json) :
    (array items).canonical = .array (items.map canonical) := by
  rw [canonical, canonicalItems_eq]

theorem canonical_object (members : List (String × Json)) :
    (object members).canonical =
      .object (SortedMap.ofList (members.map fun m => (m.1, m.2.canonical))).entries := by
  rw [canonical, canonicalMembers_eq]

mutual

/-- **A canonical form is its own canonical form.** -/
theorem canonical_canonical : ∀ j : Json, j.canonical.canonical = j.canonical
  | .array items => by
    have hitems : (items.map canonical).map canonical = items.map canonical := by
      rw [List.map_map]
      exact List.map_congr_left fun j hj => canonical_of_mem_items items j hj
    rw [canonical_array, canonical_array, hitems]
  | .object members => by
    -- sorting picks some of the members, and their values are canonical already
    have hentries : ∀ e ∈ (SortedMap.ofList (members.map fun m => (m.1, m.2.canonical))).entries,
        e.2.canonical = e.2 := by
      intro e he
      obtain ⟨m, hm, rfl⟩ := List.mem_map.mp (SortedMap.mem_of_mem_entries_ofList he)
      exact canonical_of_mem_members members m hm
    rw [canonical_object, canonical_object]
    generalize SortedMap.ofList (members.map fun m => (m.1, m.2.canonical)) = sorted at hentries
    have hsame : (sorted.entries.map fun m => (m.1, m.2.canonical)) = sorted.entries := by
      refine (List.map_congr_left fun e he => ?_).trans (List.map_id _)
      exact Prod.ext rfl (hentries e he)
    rw [hsame, SortedMap.ofList_entries]
  | .null | .bool _ | .integer _ | .decimal _ | .text _ => rfl

theorem canonical_of_mem_items :
    ∀ items : List Json, ∀ j ∈ items, j.canonical.canonical = j.canonical
  | [], _, hj => nomatch hj
  | i :: rest, j, hj => by
    rcases List.mem_cons.mp hj with heq | hj
    · rw [heq]
      exact canonical_canonical i
    · exact canonical_of_mem_items rest j hj

theorem canonical_of_mem_members :
    ∀ members : List (String × Json), ∀ m ∈ members, m.2.canonical.canonical = m.2.canonical
  | [], _, hm => nomatch hm
  | (_, i) :: rest, m, hm => by
    rcases List.mem_cons.mp hm with heq | hm
    · rw [heq]
      exact canonical_canonical i
    · exact canonical_of_mem_members rest m hm

end

end ApprovalFlow.Json
