import ApprovalFlow.Proofs.Json.Canonical
import ApprovalFlow.Proofs.Json.Record

/-!
# Readers and canonical forms

Of two members with one name the canonical form of a document keeps the last, while a record refuses
both. This is the only difference for a record: its fields are given the same by both forms if none
is given twice, and what is read from the document itself gives none twice.

- `Json.Stable`: what is read from a document is read from its canonical form.
- `Json.Layout.read_canonical`: **records are stable if their fields are.**
- `Json.Layout.read_of_canonical`: **what is read from the canonical form is read from the
  document**, if no field is given twice.
- `Json.Blind`: the reader does not tell the two forms apart, as those of plain values do not.
- `Json.stable_readList`, `Json.stable_readOptional`: lists and optional values of what is stable.
-/

namespace ApprovalFlow.Json

/-! ## Canonical forms -/

theorem Values.Takes.of_mem {given : Field → List Json} {fs : List Field} {vs : Values fs}
    (h : Values.Takes given fs vs) {f : Field} (hf : f ∈ fs) : ∃ v, f.Takes (given f) v := by
  induction fs with
  | nil => cases hf
  | cons g fs ih =>
    obtain ⟨v, vs⟩ := vs
    rcases List.mem_cons.mp hf with rfl | hf
    · exact ⟨v, h.1⟩
    · exact ih h.2 hf

theorem Values.Takes.imp {given given' : Field → List Json} {fs : List Field} {vs : Values fs}
    (h : Values.Takes given fs vs)
    (himp : ∀ f ∈ fs, ∀ v, f.Takes (given f) v → f.Takes (given' f) v) :
    Values.Takes given' fs vs := by
  induction fs with
  | nil => trivial
  | cons f fs ih =>
    obtain ⟨v, vs⟩ := vs
    exact ⟨himp f List.mem_cons_self v h.1, ih h.2 fun g hg => himp g (List.mem_cons_of_mem f hg)⟩

namespace Field

variable {f : Field} {given : List Json} {v : f.Value}

theorem Takes.length_le (h : f.Takes given v) : given.length ≤ 1 := by
  match given with
  | [] | [_] => simp
  | _ :: _ :: _ => exact h.elim

/-- The value that a field takes is its default or was read. -/
theorem Takes.default_or_read (h : f.Takes given v) :
    f.default = some v ∨ ∃ j, f.read j = .ok v := by
  match given with
  | [] => exact .inl h
  | [j] => exact .inr ⟨j, h⟩
  | _ :: _ :: _ => exact h.elim

/-- What is given for a field that takes a value can be read. -/
theorem Takes.read (h : f.Takes given v) {j : Json} (hj : j ∈ given) : f.read j = .ok v := by
  match given with
  | [] => cases hj
  | [_] =>
    obtain rfl := List.mem_singleton.mp hj
    exact h
  | _ :: _ :: _ => exact h.elim

theorem Takes.map (h : f.Takes given v) {g : Json → Json}
    (hg : ∀ j ∈ given, ∀ v, f.read j = .ok v → f.read (g j) = .ok v) :
    f.Takes (given.map g) v := by
  match given with
  | [] => exact h
  | [j] => exact hg j List.mem_cons_self v h
  | _ :: _ :: _ => exact h.elim

theorem Takes.of_map {g : Json → Json} (h : f.Takes (given.map g) v)
    (hg : ∀ j ∈ given, ∀ v, f.read (g j) = .ok v → f.read j = .ok v) : f.Takes given v := by
  match given with
  | [] => exact h
  | [j] => exact hg j List.mem_cons_self v h
  | _ :: _ :: _ => exact h.elim

/-- In a sorted object a field without other names is given by the last of the members that gave it
before. -/
theorem given_ofList (hf : f.aliases = []) (members : List (String × Json)) :
    f.given (SortedMap.ofList members).entries = (f.given members).getLast?.toList := by
  have hname : ∀ name, f.answersTo name = decide (name = f.name) := by
    intro name
    rw [Bool.eq_iff_iff, answersTo_iff, hf, List.mem_singleton, decide_eq_true_iff]
  unfold Field.given
  simp only [hname]
  rw [SortedMap.filter_entries, SortedMap.find?_ofList, List.getLast?_map, ← List.head?_reverse,
    ← List.filter_reverse, List.head?_filter]
  cases members.reverse.find? fun e => decide (e.1 = f.name) <;> rfl

end Field

namespace Layout

variable {α : Type} {l : Layout α} {j : Json} {a : α}

/-- If a field is given once, the canonical form gives the same for it, in canonical form. -/
theorem given_canonical {f : Field} (hf : f.aliases = []) (h : (l.given j f).length ≤ 1) :
    l.given j.canonical f = (l.given j f).map canonical := by
  cases j with
  | object members =>
    have hvalues : f.given (members.map fun m => (m.1, m.2.canonical)) =
        (f.given members).map canonical := by
      unfold Field.given
      rw [List.filter_map, List.map_map, List.map_map]
      rfl
    change (f.given members).length ≤ 1 at h
    rw [canonical_object]
    show f.given _ = (f.given members).map canonical
    rw [Field.given_ofList hf, hvalues]
    match f.given members, h with
    | [], _ => rfl
    | [_], _ => rfl
  | array items =>
    rw [canonical_array]
    show f.givenItem _ _ = (f.givenItem _ _).map canonical
    unfold Field.givenItem
    rw [List.zip_map_right, List.filter_map, List.map_map, List.map_map]
    rfl
  | null | bool | integer | decimal | text => rfl

theorem admits_canonical : l.Admits j.canonical ↔ l.Admits j := by
  cases j with
  | object members => rw [canonical_object]; exact Iff.rfl
  | array items =>
    rw [canonical_array]
    show (items.map canonical).length ≤ _ ∨ _ ↔ _
    rw [List.length_map]
    exact Iff.rfl
  | null | bool | integer | decimal | text => exact Iff.rfl

/-- No field of a record that is read is given twice. -/
theorem givesOnce_of_read (hl : l.Regular) (h : l.read j = .ok a) : l.GivesOnce j := by
  obtain ⟨-, vs, htakes, -⟩ := (read_eq_ok_iff hl).mp h
  intro f hf
  obtain ⟨v, hv⟩ := htakes.of_mem hf
  exact hv.length_le

/-- What is given for a field of a record that is read can be read itself. -/
theorem exists_read_of_read (hl : l.Regular) (h : l.read j = .ok a) {f : Field} (hf : f ∈ l.fields)
    {part : Json} (hpart : part ∈ l.given j f) : ∃ v, f.read part = .ok v := by
  obtain ⟨-, vs, htakes, -⟩ := (read_eq_ok_iff hl).mp h
  obtain ⟨v, hv⟩ := htakes.of_mem hf
  exact ⟨v, hv.read hpart⟩

end Layout

/-- A reader takes the canonical form of a document for what it takes the document for. -/
def Stable {α : Type} (read : Json → Except Mismatch α) : Prop :=
  ∀ j a, read j = .ok a → read j.canonical = .ok a

/-- A reader that does not tell a document from its canonical form. -/
def Blind {α : Type} (read : Json → Except Mismatch α) : Prop := ∀ j, read j.canonical = read j

theorem Blind.stable {α : Type} {read : Json → Except Mismatch α} (h : Blind read) : Stable read :=
  fun j _ hj => (h j).trans hj

namespace Layout

variable {α : Type} {l : Layout α} {j : Json} {a : α}

/-- **A record that is read from a document is read from its canonical form**, if that holds of its
fields. -/
theorem read_canonical (hl : l.Regular)
    (hfields : ∀ f ∈ l.fields, f.aliases = [] ∧ Stable f.read) : Stable l.read := by
  intro j a h
  obtain ⟨hadmits, vs, htakes, ha⟩ := (read_eq_ok_iff hl).mp h
  refine (read_eq_ok_iff hl).mpr
    ⟨admits_canonical.mpr hadmits, vs, htakes.imp fun f hf v hv => ?_, ha⟩
  obtain ⟨hname, hstable⟩ := hfields f hf
  rw [given_canonical hname hv.length_le]
  exact hv.map fun part _ => hstable part

/-- **A record that is read from the canonical form of a document is read from the document**,
unless a field is given twice or what is given for a field is not read as before. -/
theorem read_of_canonical (hl : l.Regular) (hone : l.GivesOnce j)
    (hfields : ∀ f ∈ l.fields, f.aliases = [] ∧ ∀ part ∈ l.given j f, ∀ v,
      f.read part.canonical = .ok v → f.read part = .ok v)
    (h : l.read j.canonical = .ok a) : l.read j = .ok a := by
  obtain ⟨hadmits, vs, htakes, ha⟩ := (read_eq_ok_iff hl).mp h
  refine (read_eq_ok_iff hl).mpr
    ⟨admits_canonical.mp hadmits, vs, htakes.imp fun f hf v hv => ?_, ha⟩
  obtain ⟨hname, hpart⟩ := hfields f hf
  rw [given_canonical hname (hone f hf)] at hv
  exact hv.of_map hpart

theorem stable_of_blind (hl : l.Regular) (hfields : ∀ f ∈ l.fields, f.aliases = [] ∧ Blind f.read) :
    Stable l.read :=
  read_canonical hl fun f hf => ⟨(hfields f hf).1, (hfields f hf).2.stable⟩

/-- With fields of plain values only a field given twice tells a document from its canonical
form. -/
theorem read_of_blind (hl : l.Regular) (hfields : ∀ f ∈ l.fields, f.aliases = [] ∧ Blind f.read)
    (hone : l.GivesOnce j) (h : l.read j.canonical = .ok a) : l.read j = .ok a := by
  refine read_of_canonical hl hone (fun f hf => ⟨(hfields f hf).1, fun part _ v hv => ?_⟩) h
  rw [← (hfields f hf).2 part]
  exact hv

end Layout

/-! ## Readers of field values -/

/-- A reader that does not look into brackets is blind. -/
theorem blind_of_flat {α : Type} {read : Json → Except Mismatch α}
    (harray : ∀ items items', read (.array items) = read (.array items'))
    (hobject : ∀ members members', read (.object members) = read (.object members')) :
    Blind read := by
  intro j
  cases j with
  | array items =>
    rw [canonical_array]
    exact harray ..
  | object members =>
    rw [canonical_object]
    exact hobject ..
  | null | bool | integer | decimal | text => rfl

theorem blind_readText : Blind readText := blind_of_flat (fun _ _ => rfl) fun _ _ => rfl

theorem blind_readBool : Blind readBool := blind_of_flat (fun _ _ => rfl) fun _ _ => rfl

theorem blind_readNothing : Blind readNothing := blind_of_flat (fun _ _ => rfl) fun _ _ => rfl

theorem blind_readAny : Blind readAny := fun j => congrArg Except.ok (canonical_canonical j)

/-- An object with a single member has a single member in canonical form; one with several may come
to have one only there. -/
theorem stable_readChoice {α : Type} {offered : List (String × α)}
    {payload : Json → Except Mismatch Unit} (h : Blind payload) :
    Stable (readChoice offered payload) := by
  intro j a hj
  match j with
  | .object [(name, part)] =>
    rw [canonical_object]
    show readChoice offered payload (.object [(name, part.canonical)]) = .ok a
    rw [readChoice] at hj ⊢
    rw [h part]
    exact hj
  | .object [] | .object (_ :: _ :: _) => cases hj
  | .array _ => cases hj
  | .text _ | .null | .bool _ | .integer _ | .decimal _ => exact hj

section Lists

variable {α : Type} {read : Json → Except Mismatch α} {items : List Json} {as : List α} {j : Json}

/-- A list is read item by item. -/
theorem readEach_eq_ok_iff :
    readEach read items = .ok as ↔ List.Forall₂ (fun j a => read j = .ok a) items as := by
  induction items generalizing as with
  | nil => rw [readEach, List.forall₂_nil_left_iff, Except.ok.injEq, eq_comm]
  | cons j rest ih =>
    rw [readEach, List.forall₂_cons_left_iff]
    cases read j with
    | error e => exact ⟨nofun, fun ⟨_, _, h, _⟩ => nomatch h⟩
    | ok a =>
      dsimp only
      rw [map_eq_ok_iff]
      simp only [ih, Except.ok.injEq, exists_and_left, exists_eq_left', eq_comm]

theorem readList_eq_ok_iff :
    readList read j = .ok as ↔
      ∃ items, j = .array items ∧ List.Forall₂ (fun j a => read j = .ok a) items as := by
  cases j with
  | array items =>
    rw [readList, readEach_eq_ok_iff]
    exact ⟨fun h => ⟨items, rfl, h⟩, fun ⟨_, heq, h⟩ => by cases heq; exact h⟩
  | null | bool | integer | decimal | text | object => exact ⟨nofun, fun ⟨_, heq, _⟩ => nomatch heq⟩

theorem forall_of_readList {P : α → Prop} (h : readList read j = .ok as)
    (hread : ∀ j a, read j = .ok a → P a) : ∀ a ∈ as, P a := by
  obtain ⟨items, -, has⟩ := readList_eq_ok_iff.mp h
  intro a ha
  obtain ⟨i, hi, rfl⟩ := List.mem_iff_getElem.mp ha
  exact hread _ _ (has.get (has.length_eq ▸ hi) hi)

theorem stable_readList (h : Stable read) : Stable (readList read) := by
  intro j as hj
  obtain ⟨items, rfl, hitems⟩ := readList_eq_ok_iff.mp hj
  rw [canonical_array]
  refine readList_eq_ok_iff.mpr ⟨_, rfl, List.forall₂_map_left_iff.mpr ?_⟩
  exact hitems.imp fun j a => h j a

theorem readList_of_canonical
    (hitems : ∀ items, j = .array items →
      ∀ i ∈ items, ∀ a, read i.canonical = .ok a → read i = .ok a)
    (h : readList read j.canonical = .ok as) : readList read j = .ok as := by
  obtain ⟨items', heq, has⟩ := readList_eq_ok_iff.mp h
  cases j with
  | array items =>
    rw [canonical_array] at heq
    cases heq
    refine readList_eq_ok_iff.mpr ⟨items, rfl, ?_⟩
    have hback := List.forall₂_map_left_iff.mp has
    exact List.forall₂_iff_get.mpr ⟨hback.length_eq, fun i hi hi' =>
      hitems items rfl _ (List.get_mem _ _) _ (hback.get hi hi')⟩
  | object members => rw [canonical_object] at heq; cases heq
  | null | bool | integer | decimal | text => cases heq

theorem stable_readOptional (h : Stable read) : Stable (readOptional read) := by
  intro j a hj
  cases j with
  | null => exact hj
  | array | object =>
    obtain ⟨a, ha, rfl⟩ := map_eq_ok_iff.mp hj
    have hcanonical := h _ _ ha
    simp only [canonical_array, canonical_object] at hcanonical ⊢
    exact map_eq_ok_iff.mpr ⟨a, hcanonical, rfl⟩
  | bool | integer | decimal | text => exact hj

end Lists

end ApprovalFlow.Json
