import ApprovalFlow.Engine.Store

/-!
# What an engine knows by ids that it gave

Definitions and instances get their ids from counters that only go up. An id is its number, so it is
given once, and what is stored under an id stays there.

- `Store.Numbered`: every id in use is the id of a number that was counted.
- `Store.Extends`: a later engine knows all that an earlier one knew.
- `Store.withDefinition`, `Store.withInstance`: what submitting and starting do to an engine.
- `Store.Numbered.extends_withDefinition`, `Store.Numbered.extends_withInstance`: **nothing that was
  known is lost by them**, since a new id is none in use.
- `Store.Extends.definitionFor?`: an instance goes on running its definition.
-/

namespace ApprovalFlow

namespace Store

/-- The id of the definition with a number. -/
def processId (k : Nat) : String := "proc-" ++ toString k

/-- The id of the instance with a number. -/
def instanceId (k : Nat) : String := "inst-" ++ toString k

theorem toString_inj {k k' : Nat} : toString k = toString k' ↔ k = k' := by
  refine ⟨fun h => ?_, fun h => h ▸ rfl⟩
  -- the digits of a number are read back as the number
  have hdigits := congrArg String.toList h
  rw [Nat.toString_eq_repr, Nat.toString_eq_repr, Nat.toList_repr, Nat.toList_repr] at hdigits
  rw [← Nat.ofDigitChars_ten_toDigits (n := k), hdigits, Nat.ofDigitChars_ten_toDigits]

theorem processId_inj {k k' : Nat} : processId k = processId k' ↔ k = k' := by
  unfold processId
  rw [String.append_right_inj, toString_inj]

theorem instanceId_inj {k k' : Nat} : instanceId k = instanceId k' ↔ k = k' := by
  unfold instanceId
  rw [String.append_right_inj, toString_inj]

/-- Every id in use is the id of a number that was counted. -/
structure Numbered (s : Store) : Prop where
  processes : ∀ id p, s.definition? id = some p → ∃ k ≤ s.processCount, id = processId k
  instances : ∀ inst id, s.instances.find? inst = some id →
    ∃ k ≤ s.instanceCount, inst = instanceId k

/-- The second engine knows all that the first one knows, and it counted further. -/
structure Extends (s s' : Store) : Prop where
  definitions : ∀ id p, s.definition? id = some p → s'.definition? id = some p
  instances : ∀ inst id, s.instances.find? inst = some id → s'.instances.find? inst = some id
  processCount : s.processCount ≤ s'.processCount
  instanceCount : s.instanceCount ≤ s'.instanceCount

/-- Both know the same and counted the same. -/
structure SameIds (s s' : Store) : Prop where
  definitions : s'.definitions = s.definitions
  instances : s'.instances = s.instances
  processCount : s'.processCount = s.processCount
  instanceCount : s'.instanceCount = s.instanceCount

variable {s s' s'' : Store}

theorem SameIds.refl (s : Store) : s.SameIds s := ⟨rfl, rfl, rfl, rfl⟩

theorem SameIds.trans (h : s.SameIds s') (h' : s'.SameIds s'') : s.SameIds s'' :=
  ⟨h'.definitions.trans h.definitions, h'.instances.trans h.instances,
    h'.processCount.trans h.processCount, h'.instanceCount.trans h.instanceCount⟩

theorem SameIds.extends (h : s.SameIds s') : s.Extends s' := by
  refine ⟨fun id p hp => ?_, fun inst id hid => ?_, Nat.le_of_eq h.processCount.symm,
    Nat.le_of_eq h.instanceCount.symm⟩
  · unfold definition?
    rw [h.definitions]
    exact hp
  · rw [h.instances]
    exact hid

theorem SameIds.numbered (h : s.SameIds s') (hs : s.Numbered) : s'.Numbered := by
  refine ⟨fun id p hp => ?_, fun inst id hid => ?_⟩
  · unfold definition? at hp
    rw [h.definitions] at hp
    rw [h.processCount]
    exact hs.processes id p hp
  · rw [h.instances] at hid
    rw [h.instanceCount]
    exact hs.instances inst id hid

namespace Extends

theorem trans (h : s.Extends s') (h' : s'.Extends s'') : s.Extends s'' where
  definitions id p hp := h'.definitions id p (h.definitions id p hp)
  instances inst id hid := h'.instances inst id (h.instances inst id hid)
  processCount := Nat.le_trans h.processCount h'.processCount
  instanceCount := Nat.le_trans h.instanceCount h'.instanceCount

/-- An instance goes on running its definition. -/
theorem definitionFor? (h : s.Extends s') {inst : String} {p : ProcessDefinition}
    (hp : s.definitionFor? inst = some p) : s'.definitionFor? inst = some p := by
  unfold Store.definitionFor? at hp ⊢
  obtain ⟨id, hid, hp⟩ := Option.bind_eq_some_iff.mp hp
  rw [h.instances inst id hid]
  exact h.definitions id p hp

end Extends

/-! ## New ids -/

/-- At the beginning no id is in use. -/
theorem numbered_empty : Numbered {} := by
  refine ⟨fun id p hp => ?_, fun inst id hid => ?_⟩
  · cases hp
  · cases hid

/-- The engine with one more definition. -/
def withDefinition (s : Store) (p : ProcessDefinition) : Store :=
  { s with
    definitions := s.definitions.insert (processId (s.processCount + 1)) p
    processCount := s.processCount + 1 }

/-- The engine with one more instance. -/
def withInstance (s : Store) (id : String) : Store :=
  { s with
    instances := s.instances.insert (instanceId (s.instanceCount + 1)) id
    instanceCount := s.instanceCount + 1 }

theorem submit_eq (h : s.submissionFailure = none) (p : ProcessDefinition) :
    s.submit p = .ok (processId (s.processCount + 1), s.withDefinition p) := by
  unfold submit
  split
  · rename_i hreason
    rw [h] at hreason
    cases hreason
  · rfl

theorem submit_refused {reason : String} (h : s.submissionFailure = some reason)
    (p : ProcessDefinition) : s.submit p = .error (.refused reason) := by
  unfold submit
  rw [h]

theorem startInstance_eq {id : String} {p : ProcessDefinition} (h : s.definition? id = some p) :
    s.startInstance id = .ok (instanceId (s.instanceCount + 1), s.withInstance id) := by
  have hcontains : s.definitions.contains id = true := by
    unfold definition? at h
    unfold SortedMap.contains
    rw [h]
    rfl
  unfold startInstance
  rw [if_pos hcontains]
  rfl

theorem definition?_withDefinition (s : Store) (p : ProcessDefinition) (id : String) :
    (s.withDefinition p).definition? id =
      if id = processId (s.processCount + 1) then some p else s.definition? id :=
  SortedMap.find?_insert ..

theorem find?_withInstance (s : Store) (id inst : String) :
    (s.withInstance id).instances.find? inst =
      if inst = instanceId (s.instanceCount + 1) then some id else s.instances.find? inst :=
  SortedMap.find?_insert ..

/-- A new instance runs the definition of its process. -/
theorem definitionFor?_withInstance {id : String} {p : ProcessDefinition}
    (h : s.definition? id = some p) :
    (s.withInstance id).definitionFor? (instanceId (s.instanceCount + 1)) = some p := by
  unfold definitionFor?
  rw [find?_withInstance, if_pos rfl]
  exact h

namespace Numbered

variable (hs : s.Numbered)

include hs

/-- The next process id is not in use. -/
theorem definition?_next : s.definition? (processId (s.processCount + 1)) = none := by
  cases h : s.definition? (processId (s.processCount + 1)) with
  | none => rfl
  | some p =>
    obtain ⟨k, hk, hid⟩ := hs.processes _ p h
    rw [← processId_inj.mp hid] at hk
    exact absurd hk (Nat.not_succ_le_self _)

/-- Nor is the next instance id. -/
theorem find?_next : s.instances.find? (instanceId (s.instanceCount + 1)) = none := by
  cases h : s.instances.find? (instanceId (s.instanceCount + 1)) with
  | none => rfl
  | some id =>
    obtain ⟨k, hk, hinst⟩ := hs.instances _ id h
    rw [← instanceId_inj.mp hinst] at hk
    exact absurd hk (Nat.not_succ_le_self _)

theorem withDefinition (p : ProcessDefinition) : (s.withDefinition p).Numbered := by
  refine ⟨fun id q hq => ?_, hs.instances⟩
  rw [definition?_withDefinition] at hq
  split at hq
  · rename_i hid
    exact ⟨s.processCount + 1, Nat.le_refl _, hid⟩
  · obtain ⟨k, hk, hid⟩ := hs.processes id q hq
    exact ⟨k, Nat.le_succ_of_le hk, hid⟩

theorem withInstance (id : String) : (s.withInstance id).Numbered := by
  refine ⟨hs.processes, fun inst id' hid' => ?_⟩
  rw [find?_withInstance] at hid'
  split at hid'
  · rename_i hinst
    exact ⟨s.instanceCount + 1, Nat.le_refl _, hinst⟩
  · obtain ⟨k, hk, hinst⟩ := hs.instances inst id' hid'
    exact ⟨k, Nat.le_succ_of_le hk, hinst⟩

/-- **Submitting a definition loses nothing that was known.** -/
theorem extends_withDefinition (p : ProcessDefinition) : s.Extends (s.withDefinition p) where
  definitions id q hq := by
    have hne : id ≠ processId (s.processCount + 1) := by
      rintro rfl
      rw [hs.definition?_next] at hq
      cases hq
    rw [definition?_withDefinition, if_neg hne]
    exact hq
  instances _ _ hid := hid
  processCount := Nat.le_succ _
  instanceCount := Nat.le_refl _

/-- **Starting an instance loses nothing that was known.** -/
theorem extends_withInstance (id : String) : s.Extends (s.withInstance id) where
  definitions _ _ hp := hp
  instances inst id' hid' := by
    have hne : inst ≠ instanceId (s.instanceCount + 1) := by
      rintro rfl
      rw [hs.find?_next] at hid'
      cases hid'
    rw [find?_withInstance, if_neg hne]
    exact hid'
  processCount := Nat.le_refl _
  instanceCount := Nat.le_succ _

end Numbered

end Store

end ApprovalFlow
