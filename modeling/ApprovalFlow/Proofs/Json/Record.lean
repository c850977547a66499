import ApprovalFlow.Json.Record
import Mathlib.Data.List.Basic

/-!
# What a record is read from

A record is read from an object member by member, or from an array item by item. What is read in the
end depends on less than that: on the documents that are given for each field. A field takes the one
document that is given for it, or its default if there is none, and nothing fits a field for which
two are given. Members that name no field do not matter.

- `Json.Field.given`, `Json.Layout.given`: the documents that are given for a field.
- `Json.Field.Takes`, `Json.Values.Takes`: the values that fields take from what is given.
- `Json.Layout.read_eq_ok_iff`: **a record is read just when every field takes its value**, from an
  object and from an array alike.
- `Json.Layout.GivesOnce`: no field is given twice.
-/

namespace ApprovalFlow.Json

theorem map_eq_ok_iff {ε α β : Type} {x : Except ε α} {f : α → β} {b : β} :
    x.map f = .ok b ↔ ∃ a, x = .ok a ∧ f a = b := by
  cases x with
  | error e => exact ⟨nofun, fun ⟨_, h, _⟩ => nomatch h⟩
  | ok a =>
    show Except.ok (f a) = Except.ok b ↔ ∃ a', Except.ok a = Except.ok a' ∧ f a' = b
    simp only [Except.ok.injEq, exists_eq_left']

/-! ## What is given for a field -/

namespace Field

/-- The documents that the members of an object give for a field. -/
def given (f : Field) (members : List (String × Json)) : List Json :=
  (members.filter fun m => f.answersTo m.1).map (·.2)

/-- A field takes a value from the one document that is given for it, or without one by default. -/
def Takes (f : Field) : List Json → f.Value → Prop
  | [], v => f.default = some v
  | [j], v => f.read j = .ok v
  | _ :: _ :: _, _ => False

/-- No name of the one field is a name of the other. -/
def Apart (f g : Field) : Prop := ∀ name ∈ f.name :: f.aliases, g.answersTo name = false

instance (f g : Field) : Decidable (f.Apart g) :=
  inferInstanceAs (Decidable (∀ name ∈ f.name :: f.aliases, _))

variable {f g : Field} {name : String} {j : Json} {members : List (String × Json)}

theorem answersTo_iff : f.answersTo name = true ↔ name ∈ f.name :: f.aliases := by
  unfold answersTo
  rw [Bool.or_eq_true, beq_iff_eq, List.contains_iff_mem, List.mem_cons, eq_comm (a := name)]

theorem given_cons :
    f.given ((name, j) :: members) =
      if f.answersTo name then j :: f.given members else f.given members := by
  unfold given
  rw [List.filter_cons]
  split <;> rfl

/-- Leaving out the members for one field leaves those for another. -/
theorem given_filter (h : f.Apart g) :
    g.given (members.filter fun m => !f.answersTo m.1) = g.given members := by
  unfold given
  rw [List.filter_filter]
  refine congrArg _ (List.filter_congr fun m _ => ?_)
  cases hf : f.answersTo m.1 with
  | false => exact Bool.and_true _
  | true => rw [h m.1 (answersTo_iff.mp hf)]; rfl

end Field

/-! ## Objects -/

/-- The slot of a field after some documents are given for it. -/
def Field.Fills (f : Field) (slot : Option f.Value) : List Json → Option f.Value → Prop
  | [], slot' => slot' = slot
  | [j], slot' => slot = none ∧ ∃ v, f.read j = .ok v ∧ slot' = some v
  | _ :: _ :: _, _ => False

theorem Field.not_fills_some {f : Field} {v : f.Value} {j : Json} {given : List Json}
    {slot' : Option f.Value} : ¬ f.Fills (some v) (j :: given) slot' := by
  cases given with
  | nil => exact fun h => nomatch h.1
  | cons _ _ => exact id

theorem Field.fills_none_cons {f : Field} {j : Json} {given : List Json} {slot' : Option f.Value} :
    f.Fills none (j :: given) slot' ↔ ∃ v, f.read j = .ok v ∧ f.Fills (some v) given slot' := by
  cases given with
  | nil => exact ⟨fun h => h.2, fun h => ⟨rfl, h⟩⟩
  | cons i rest => exact ⟨fun h => h.elim, fun ⟨_, _, h⟩ => Field.not_fills_some h⟩

/-- Reading members fills the slot of the first field with what is given for it, and those of the
others with all else. -/
theorem readMembers_cons_eq_ok {strict : Option (List String)} {f : Field} {fs : List Field}
    {slot slot' : Option f.Value} {slots slots' : Slots fs} {members : List (String × Json)} :
    readMembers strict (f :: fs) (slot, slots) members = .ok (slot', slots') ↔
      f.Fills slot (f.given members) slot' ∧
        readMembers strict fs slots (members.filter fun m => !f.answersTo m.1) = .ok slots' := by
  induction members generalizing slot slots with
  | nil =>
    show Except.ok (slot, slots) = Except.ok (slot', slots') ↔
      slot' = slot ∧ Except.ok slots = Except.ok slots'
    rw [Except.ok.injEq, Prod.mk.injEq, Except.ok.injEq, eq_comm (a := slot)]
  | cons m rest ih =>
    obtain ⟨name, j⟩ := m
    rw [readMembers, Slots.put, Field.given_cons, List.filter_cons]
    dsimp only
    cases h : f.answersTo name with
    | true =>
      simp only [if_true, Bool.not_true, Bool.false_eq_true, if_false]
      cases slot with
      | some v => exact ⟨nofun, fun h => absurd h.1 Field.not_fills_some⟩
      | none =>
        rw [Field.fills_none_cons]
        cases f.read j with
        | error e => exact ⟨nofun, fun ⟨⟨_, h, _⟩, _⟩ => nomatch h⟩
        | ok v =>
          refine ih.trans (and_congr_left fun _ => ?_)
          exact ⟨fun h => ⟨v, rfl, h⟩, fun ⟨v', hv, h⟩ => by cases hv; exact h⟩
    | false =>
      simp only [Bool.false_eq_true, if_false, Bool.not_false, if_true]
      rw [readMembers]
      cases slots.put strict name j fs with
      | error e => exact ⟨nofun, fun ⟨_, h⟩ => nomatch h⟩
      | ok slots => exact ih

/-- The values that fields take from what is given for each. -/
def Values.Takes (given : Field → List Json) : (fs : List Field) → Values fs → Prop
  | [], () => True
  | f :: fs, (v, vs) => f.Takes (given f) v ∧ Values.Takes given fs vs

/-- What is given for other fields does not matter. -/
theorem Values.takes_congr {given given' : Field → List Json} {fs : List Field} {vs : Values fs}
    (h : ∀ f ∈ fs, given f = given' f) : Takes given fs vs ↔ Takes given' fs vs := by
  induction fs with
  | nil => exact Iff.rfl
  | cons f fs ih =>
    obtain ⟨v, vs⟩ := vs
    refine and_congr ?_ (ih fun g hg => h g (List.mem_cons_of_mem f hg))
    rw [h f List.mem_cons_self]

/-- A field that is filled from nothing takes what then stands in its slot, or its default. -/
theorem Field.takes_iff {f : Field} {given : List Json} {v : f.Value} :
    f.Takes given v ↔ ∃ slot, f.Fills none given slot ∧ slot.or f.default = some v := by
  match given with
  | [] => exact ⟨fun h => ⟨none, rfl, h⟩, fun ⟨_, hslot, h⟩ => by cases hslot; exact h⟩
  | [j] =>
    constructor
    · exact fun h => ⟨some v, ⟨rfl, v, h, rfl⟩, rfl⟩
    · rintro ⟨_, ⟨-, v', h, rfl⟩, hv⟩
      cases hv
      exact h
  | _ :: _ :: _ => exact ⟨fun h => h.elim, fun ⟨_, h, _⟩ => h.elim⟩

theorem Values.map_cons_eq_ok {f : Field} {fs : List Field} {v v' : f.Value} {vs : Values fs}
    {r : Except Mismatch (Values fs)} :
    r.map (fun vs => (v', vs)) = .ok (v, vs) ↔ v' = v ∧ r = .ok vs := by
  rw [map_eq_ok_iff]
  constructor
  · rintro ⟨vs', hr, heq⟩
    obtain ⟨rfl, rfl⟩ := Prod.mk.inj heq
    exact ⟨rfl, hr⟩
  · rintro ⟨rfl, hr⟩
    exact ⟨vs, hr, rfl⟩

theorem Slots.fill_cons_eq_ok {f : Field} {fs : List Field} {slot : Option f.Value}
    {slots : Slots fs} {v : f.Value} {vs : Values fs} :
    Slots.fill (f :: fs) (slot, slots) = .ok (v, vs) ↔
      slot.or f.default = some v ∧ slots.fill fs = .ok vs := by
  rw [Slots.fill]
  cases slot.or f.default with
  | none => exact ⟨nofun, fun h => nomatch h.1⟩
  | some v' => exact Values.map_cons_eq_ok.trans (and_congr_left' Option.some_inj.symm)

/-- Members that name no field are passed over. -/
theorem readMembers_nil (members : List (String × Json)) :
    readMembers none [] () members = .ok () := by
  induction members with
  | nil => rfl
  | cons m rest ih => exact ih

/-- **The members of an object are read just when every field takes its value from them**, if no two
fields share a name. -/
theorem readMembers_eq_ok_iff {fs : List Field} (hfs : fs.Pairwise Field.Apart)
    {members : List (String × Json)} {vs : Values fs} :
    (∃ slots, readMembers none fs (Slots.empty fs) members = .ok slots ∧ slots.fill fs = .ok vs) ↔
      Values.Takes (·.given members) fs vs := by
  induction fs generalizing members with
  | nil => exact iff_of_true ⟨(), readMembers_nil members, rfl⟩ trivial
  | cons f fs ih =>
    obtain ⟨v, vs⟩ := vs
    obtain ⟨hf, hfs⟩ := List.pairwise_cons.mp hfs
    have hrest : Values.Takes (·.given (members.filter fun m => !f.answersTo m.1)) fs vs ↔
        Values.Takes (·.given members) fs vs :=
      Values.takes_congr fun g hg => Field.given_filter (hf g hg)
    rw [Values.Takes, ← hrest, ← ih hfs, Field.takes_iff]
    constructor
    · rintro ⟨⟨slot, slots⟩, hread, hfill⟩
      obtain ⟨hslot, hslots⟩ := readMembers_cons_eq_ok.mp hread
      obtain ⟨hv, hvs⟩ := Slots.fill_cons_eq_ok.mp hfill
      exact ⟨⟨slot, hslot, hv⟩, slots, hslots, hvs⟩
    · rintro ⟨⟨slot, hslot, hv⟩, slots, hslots, hvs⟩
      exact ⟨(slot, slots), readMembers_cons_eq_ok.mpr ⟨hslot, hslots⟩,
        Slots.fill_cons_eq_ok.mpr ⟨hv, hvs⟩⟩

/-! ## Arrays -/

/-- The item of an array that is given for a field: the one at the place of the field's name. -/
def Field.givenItem (f : Field) (names : List String) (items : List Json) : List Json :=
  ((names.zip items).filter fun p => p.1 == f.name).map (·.2)

namespace Field

variable {f g : Field} {names : List String} {j : Json} {items : List Json}

theorem Apart.name_ne (h : f.Apart g) : f.name ≠ g.name := by
  intro heq
  have hg : g.answersTo f.name = true := answersTo_iff.mpr (heq ▸ List.mem_cons_self)
  rw [h f.name List.mem_cons_self] at hg
  cases hg

theorem givenItem_nil : f.givenItem names [] = [] := by
  unfold givenItem
  rw [List.zip_nil_right]
  rfl

/-- The first item is given for the first field alone. -/
theorem givenItem_cons_self (h : f.name ∉ names) :
    f.givenItem (f.name :: names) (j :: items) = [j] := by
  unfold givenItem
  have hnone : (names.zip items).filter (fun p => p.1 == f.name) = [] :=
    List.filter_eq_nil_iff.mpr fun p hp heq => h (beq_iff_eq.mp heq ▸ (List.of_mem_zip hp).1)
  rw [List.zip_cons_cons, List.filter_cons, if_pos (beq_self_eq_true f.name), hnone]
  rfl

theorem givenItem_cons_of_ne {name : String} (h : name ≠ f.name) :
    f.givenItem (name :: names) (j :: items) = f.givenItem names items := by
  unfold givenItem
  rw [List.zip_cons_cons, List.filter_cons, if_neg fun heq => h (beq_iff_eq.mp heq)]

end Field

section Items

variable {record : String} {size index : Nat} {f : Field} {fs : List Field} {v : f.Value}
  {vs : Values fs}

theorem readItems_nil_eq_ok :
    readItems record size (f :: fs) index [] = .ok (v, vs) ↔
      f.default = some v ∧ readItems record size fs (index + 1) [] = .ok vs := by
  rw [readItems]
  cases f.default with
  | none => exact ⟨nofun, fun h => nomatch h.1⟩
  | some v' => exact Values.map_cons_eq_ok.trans (and_congr_left' Option.some_inj.symm)

theorem readItems_cons_eq_ok {j : Json} {rest : List Json} :
    readItems record size (f :: fs) index (j :: rest) = .ok (v, vs) ↔
      f.read j = .ok v ∧ readItems record size fs (index + 1) rest = .ok vs := by
  rw [readItems]
  cases f.read j with
  | error e => exact ⟨nofun, fun h => nomatch h.1⟩
  | ok v' => exact Values.map_cons_eq_ok.trans (and_congr_left' (Except.ok.injEq ..).symm.to_iff)

end Items

/-- **The items of an array are read just when every field takes its value from them**, if no two
fields share a name. -/
theorem readItems_eq_ok_iff {record : String} {size index : Nat} {fs : List Field}
    (hfs : fs.Pairwise Field.Apart) {items : List Json} {vs : Values fs} :
    readItems record size fs index items = .ok vs ↔
      Values.Takes (·.givenItem (fs.map (·.name)) items) fs vs := by
  induction fs generalizing index items with
  | nil => exact iff_of_true rfl trivial
  | cons f fs ih =>
    obtain ⟨v, vs⟩ := vs
    obtain ⟨hf, hfs⟩ := List.pairwise_cons.mp hfs
    rw [Values.Takes, List.map_cons]
    cases items with
    | nil =>
      have hrest : Values.Takes (·.givenItem (f.name :: fs.map (·.name)) []) fs vs ↔
          Values.Takes (·.givenItem (fs.map (·.name)) []) fs vs :=
        Values.takes_congr fun g _ => Field.givenItem_nil.trans Field.givenItem_nil.symm
      rw [hrest, readItems_nil_eq_ok, ih hfs, Field.givenItem_nil, Field.Takes]
    | cons j rest =>
      have hname : f.name ∉ fs.map (·.name) := by
        intro h
        obtain ⟨g, hg, heq⟩ := List.mem_map.mp h
        exact (hf g hg).name_ne heq.symm
      have hrest : Values.Takes (·.givenItem (f.name :: fs.map (·.name)) (j :: rest)) fs vs ↔
          Values.Takes (·.givenItem (fs.map (·.name)) rest) fs vs :=
        Values.takes_congr fun g hg => Field.givenItem_cons_of_ne (hf g hg).name_ne
      rw [hrest, readItems_cons_eq_ok, ih hfs, Field.givenItem_cons_self hname, Field.Takes]

/-! ## Records -/

namespace Layout

variable {α : Type}

/-- The documents that a document gives for a field of the record. -/
def given (l : Layout α) (j : Json) (f : Field) : List Json :=
  match j with
  | .object members => f.given members
  | .array items => f.givenItem (l.fields.map (·.name)) items
  | _ => []

/-- Has the document a form in which the record can be given? -/
def Admits (l : Layout α) : Json → Prop
  | .object _ => True
  | .array items => items.length ≤ l.fields.length ∨ l.lenient = true
  | _ => False

/-- No two fields share a name, and members that name none are passed over. -/
structure Regular (l : Layout α) : Prop where
  apart : l.fields.Pairwise Field.Apart
  lax : l.strict = false

variable {l : Layout α} {j : Json} {a : α}

theorem read_object_eq_ok_iff (hl : l.Regular) {members : List (String × Json)} :
    l.read (.object members) = .ok a ↔
      ∃ vs, Values.Takes (·.given members) l.fields vs ∧ l.build vs = a := by
  have htakes {vs : Values l.fields} := @readMembers_eq_ok_iff l.fields hl.apart members vs
  rw [read, hl.lax]
  simp only [← htakes, Bool.false_eq_true, if_false]
  cases readMembers none l.fields (Slots.empty l.fields) members with
  | error e => exact ⟨nofun, fun ⟨_, ⟨_, h, _⟩, _⟩ => nomatch h⟩
  | ok slots =>
    dsimp only
    rw [map_eq_ok_iff]
    simp only [Except.ok.injEq, exists_eq_left']

theorem read_array_eq_ok_iff (hl : l.Regular) {items : List Json} :
    l.read (.array items) = .ok a ↔
      (items.length ≤ l.fields.length ∨ l.lenient = true) ∧
        ∃ vs, Values.Takes (·.givenItem (l.fields.map (·.name)) items) l.fields vs ∧
          l.build vs = a := by
  have htakes {vs : Values l.fields} :=
    @readItems_eq_ok_iff l.name l.fields.length 0 l.fields hl.apart items vs
  have hfits : (l.fields.length < items.length ∧ (!l.lenient) = true) ↔
      ¬ (items.length ≤ l.fields.length ∨ l.lenient = true) := by
    rw [not_or, Nat.not_le, Bool.not_eq_true', Bool.not_eq_true]
  rw [read]
  simp only [← htakes]
  cases readItems l.name l.fields.length l.fields 0 items with
  | error e => exact ⟨nofun, fun ⟨_, _, h, _⟩ => nomatch h⟩
  | ok vs =>
    dsimp only
    split
    · rename_i hlong
      exact ⟨nofun, fun h => absurd h.1 (hfits.mp hlong)⟩
    · rename_i hlong
      refine ⟨fun ha => ⟨not_not.mp (mt hfits.mpr hlong), vs, rfl, Except.ok.inj ha⟩, ?_⟩
      rintro ⟨-, vs', hvs, ha⟩
      cases hvs
      exact congrArg Except.ok ha

/-- **A record is read just when every field takes its value from what is given for it.** -/
theorem read_eq_ok_iff (hl : l.Regular) :
    l.read j = .ok a ↔
      l.Admits j ∧ ∃ vs, Values.Takes (l.given j) l.fields vs ∧ l.build vs = a := by
  cases j with
  | object members => exact (read_object_eq_ok_iff hl).trans (iff_of_eq (true_and _)).symm
  | array items => exact read_array_eq_ok_iff hl
  | null | bool | integer | decimal | text => exact ⟨nofun, fun h => h.1.elim⟩

/-- No field of the record is given twice. -/
def GivesOnce (l : Layout α) (j : Json) : Prop := ∀ f ∈ l.fields, (l.given j f).length ≤ 1

end Layout

end ApprovalFlow.Json
