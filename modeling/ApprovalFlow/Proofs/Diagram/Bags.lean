import ApprovalFlow.Proofs.Definition.Decoded
import ApprovalFlow.Proofs.Json.Stable
import Mathlib.Data.Set.List

/-!
# Bags of properties

What the editor stores with a node or an edge has a grammar of its own, apart from the readers: each
kind has its fields, each field its type and its spellings. A bag is null, an object that gives no
field twice, or an array of the first fields in their order. A field that is not given has the zero
value of its type, and null is a value of no type.

- `BagField`, `NodeKind.bagFields`, `edgeBagFields`: the fields of each kind of bag.
- `Bag.Accepts`: the grammar of the bags with some fields.
- `Bag.givenIn`: the documents that a bag gives for the fields, with zero values for the others.
- `Bag.ReadByGrammar`: records are read from just the bags of the grammar, and their values are the
  given ones.
- `Bag.readItems_eq_ok_iff`, `Bag.takes_iff`: what is read from an array and from an object.
- `Bag.readByGrammar_readBag`: **a layout with the fields is read by their grammar.**
- `NodeProperties.bags_by_grammar`: **so it is for every kind of node and for edges.**
-/

namespace ApprovalFlow

/-! ## The grammar -/

/-- What a field of a bag holds. -/
inductive BagType where
  | text
  | truth
  | texts
  deriving DecidableEq, Repr

namespace BagType

/-- Is the document of the type? -/
def Admits : BagType → Json → Prop
  | .text, .text _ => True
  | .truth, .bool _ => True
  | .texts, .array items => ∀ j ∈ items, ∃ s, j = .text s
  | _, _ => False

/-- The document of a field that is not given. -/
def zero : BagType → Json
  | .text => .text ""
  | .truth => .bool false
  | .texts => .array []

theorem admits_zero (type : BagType) : type.Admits type.zero := by
  cases type with
  | text | truth => trivial
  | texts => exact nofun

end BagType

/-- A field of a bag: its name, the other spellings of it, and what it holds. -/
structure BagField where
  name : String
  others : List String := []
  type : BagType
  deriving DecidableEq, Repr

/-- Is the name a spelling of the field? -/
def BagField.IsFor (f : BagField) (name : String) : Prop := name ∈ f.name :: f.others

instance (f : BagField) : DecidablePred f.IsFor := fun name =>
  inferInstanceAs (Decidable (name ∈ f.name :: f.others))

/-- The fields of the bags of a kind of node. -/
def NodeKind.bagFields : NodeKind → List BagField
  | .user => [⟨"name", [], .text⟩, ⟨"approvedUserIds", [], .texts⟩, ⟨"isCosigned", [], .truth⟩,
      ⟨"routingRule", [], .text⟩, ⟨"templateField", [], .text⟩, ⟨"isCC", ["isCc"], .truth⟩]
  | .automation => [⟨"name", [], .text⟩, ⟨"isNotify", [], .truth⟩, ⟨"notifyMethods", [], .texts⟩]
  | .start | .finish | .condition | .parallel | .inclusion => [⟨"name", [], .text⟩]

/-- The fields of the bags of edges. -/
def edgeBagFields : List BagField :=
  [⟨"name", [], .text⟩, ⟨"expression", ["conditionExpression"], .text⟩]

/-- The documents of the values of a record, in the order of its fields. -/
def NodeProperties.documents : NodeProperties → List Json
  | .start name | .finish name | .condition name | .gateway name => [.text name]
  | .user p => [.text p.name, .texts p.approverIds, .bool p.cosigned, .text p.routingRule,
      .text p.templateField, .bool p.carbonCopy]
  | .automation p => [.text p.name, .bool p.notifies, .texts p.notifyMethods]

/-- The documents of the values of an edge's record. -/
def EdgeProperties.documents (p : EdgeProperties) : List Json := [.text p.name, .text p.expression]

namespace Bag

/-- The bags with the fields. An object that names no member twice gives a field twice if it gives
it under two spellings. -/
inductive Accepts (fields : List BagField) : Json → Prop
  | null : Accepts fields .null
  | object {members : List (String × Json)}
      (hone : ∀ f ∈ fields, members.Pairwise fun m m' => ¬ (f.IsFor m.1 ∧ f.IsFor m'.1))
      (htype : ∀ f ∈ fields, ∀ m ∈ members, f.IsFor m.1 → f.type.Admits m.2) :
      Accepts fields (.object members)
  | array {items : List Json} (hlength : items.length ≤ fields.length)
      (htype : ∀ p ∈ fields.zip items, p.1.type.Admits p.2) : Accepts fields (.array items)

/-- The documents of the fields in a bag: of an object the member under a spelling of the field, of
an array the item at the place of the field, and the zero value where there is none. -/
def givenIn (fields : List BagField) : Json → List Json
  | .object members => fields.map fun f =>
      ((members.find? fun m => f.IsFor m.1).map (·.2)).getD f.type.zero
  | .array items => fields.mapIdx fun i f => items[i]?.getD f.type.zero
  | _ => fields.map (·.type.zero)

/-- Records are read from just the bags with the fields. -/
structure ReadByGrammar {α : Type} (fields : List BagField) (owner kind : String)
    (documents : α → List Json) (read : Json → Except FlowError α) : Prop where
  /-- A bag is read just if the grammar has it. -/
  accepted : ∀ bag, (∃ a, read bag = .ok a) ↔ Accepts fields bag
  /-- What is read has the given values, and zero values for the other fields. -/
  given : ∀ bag a, read bag = .ok a → documents a = givenIn fields bag
  /-- An error names the owner of the bag and the kind. -/
  refused : ∀ bag e, read bag = .error e → ∃ cause, e = .properties owner kind cause
  /-- Members that name no field have no influence. -/
  unread : ∀ members, read (.object members) =
    read (.object (members.filter fun m => ∃ f ∈ fields, f.IsFor m.1))

end Bag

/-! ## Fields -/

section Readers

variable {j : Json}

theorem Json.readText_eq_ok_iff {s : String} : readText j = .ok s ↔ j = .text s := by
  cases j with
  | text s' => simp [readText]
  | null | bool | integer | decimal | array | object => simp [readText]

theorem Json.readBool_eq_ok_iff {b : Bool} : readBool j = .ok b ↔ j = .bool b := by
  cases j with
  | bool b' => simp [readBool]
  | null | integer | decimal | text | array | object => simp [readBool]

theorem Json.readTexts_eq_ok_iff {l : List String} :
    readList readText j = .ok l ↔ j = .texts l := by
  have hitems (items : List Json) :
      List.Forall₂ (fun j s => readText j = .ok s) items l ↔ items = l.map Json.text := by
    simp only [readText_eq_ok_iff]
    rw [← List.forall₂_map_right_iff (R := (· = ·)), List.forall₂_eq_eq_eq]
  rw [readList_eq_ok_iff]
  simp only [hitems, exists_eq_right]
  rfl

end Readers

/-- The documents of lists of texts are those of the type. -/
theorem BagType.admits_texts_iff {j : Json} : texts.Admits j ↔ ∃ l, Json.texts l = j := by
  constructor
  · intro h
    cases j with
    | array items =>
      have hall : items ∈ Set.range (List.map Json.text) := by
        rw [Set.range_list_map]
        intro i hi
        obtain ⟨s, rfl⟩ := h i hi
        exact ⟨s, rfl⟩
      obtain ⟨l, rfl⟩ := hall
      exact ⟨l, rfl⟩
    | null | bool | integer | decimal | text | object => exact h.elim
  · rintro ⟨l, rfl⟩ i hi
    obtain ⟨s, -, rfl⟩ := List.mem_map.mp hi
    exact ⟨s, rfl⟩

namespace BagField

/-- The field as it is read. -/
def toField : BagField → Json.Field
  | ⟨name, others, .text⟩ => Json.optionalText name others
  | ⟨name, others, .truth⟩ => Json.optionalBool name others
  | ⟨name, others, .texts⟩ => ⟨name, others, List String, Json.readList Json.readText, some []⟩

/-- The document of a value of the field. -/
def write : (f : BagField) → f.toField.Value → Json
  | ⟨_, _, .text⟩, s => Json.text s
  | ⟨_, _, .truth⟩, b => Json.bool b
  | ⟨_, _, .texts⟩, l => Json.texts l

variable {f : BagField} {v : f.toField.Value} {j : Json}

theorem answersTo_iff {name : String} : f.toField.answersTo name = true ↔ f.IsFor name := by
  obtain ⟨_, _, type⟩ := f
  cases type <;> exact Json.Field.answersTo_iff

/-- A field is read from the documents of its values. -/
theorem read_eq_ok_iff : f.toField.read j = .ok v ↔ f.write v = j := by
  obtain ⟨name, others, type⟩ := f
  cases type with
  | text => exact Json.readText_eq_ok_iff.trans eq_comm
  | truth => exact Json.readBool_eq_ok_iff.trans eq_comm
  | texts => exact Json.readTexts_eq_ok_iff.trans eq_comm

/-- The documents of the type are those of the values. -/
theorem admits_iff : f.type.Admits j ↔ ∃ v, f.write v = j := by
  obtain ⟨name, others, type⟩ := f
  cases type with
  | text =>
    cases j with
    | text s => exact iff_of_true trivial ⟨s, rfl⟩
    | null | bool | integer | decimal | array | object => exact iff_of_false id nofun
  | truth =>
    cases j with
    | bool b => exact iff_of_true trivial ⟨b, rfl⟩
    | null | integer | decimal | text | array | object => exact iff_of_false id nofun
  | texts => exact BagType.admits_texts_iff

theorem write_injective : Function.Injective f.write := by
  intro v v' h
  have hread := read_eq_ok_iff.mpr h
  rw [read_eq_ok_iff.mpr rfl] at hread
  exact (Except.ok.inj hread).symm

/-- A field that is not given has the value whose document is zero. -/
theorem default_eq_some_iff : f.toField.default = some v ↔ f.write v = f.type.zero := by
  have hzero : ∃ z, f.toField.default = some z ∧ f.write z = f.type.zero := by
    obtain ⟨name, others, type⟩ := f
    cases type <;> exact ⟨_, rfl, rfl⟩
  obtain ⟨z, hz, hwrite⟩ := hzero
  rw [hz, ← hwrite, Option.some_inj, write_injective.eq_iff, eq_comm]

/-- A field takes its value from at most one document, which is of its type. -/
theorem takes_iff {given : List Json} :
    f.toField.Takes given v ↔
      (given.length ≤ 1 ∧ ∀ j ∈ given, f.type.Admits j) ∧
        f.write v = given.head?.getD f.type.zero := by
  match given with
  | [] => exact default_eq_some_iff.trans (iff_and_self.mpr fun _ => ⟨by simp, nofun⟩)
  | [j] =>
    refine read_eq_ok_iff.trans (iff_and_self.mpr fun h => ⟨by simp, fun i hi => ?_⟩)
    rw [List.mem_singleton.mp hi]
    exact admits_iff.mpr ⟨v, h⟩
  | _ :: _ :: _ => exact iff_of_false id fun h => absurd h.1.1 (by simp)

variable {members : List (String × Json)}

/-- An object gives a field at most once if no two of its members are under spellings of it. -/
theorem length_given_le_one_iff :
    (f.toField.given members).length ≤ 1 ↔
      members.Pairwise fun m m' => ¬ (f.IsFor m.1 ∧ f.IsFor m'.1) := by
  induction members with
  | nil => exact iff_of_true (Nat.zero_le 1) .nil
  | cons m rest ih =>
    obtain ⟨name, j⟩ := m
    rw [Json.Field.given_cons, List.pairwise_cons]
    by_cases hfor : f.IsFor name
    · have hnone : f.toField.given rest = [] ↔ ∀ m ∈ rest, ¬ (f.IsFor name ∧ f.IsFor m.1) := by
        simp only [Json.Field.given, List.map_eq_nil_iff, List.filter_eq_nil_iff, answersTo_iff,
          hfor, true_and]
      rw [if_pos (answersTo_iff.mpr hfor), List.length_cons, ← hnone, ← ih,
        ← List.length_eq_zero_iff]
      omega
    · rw [if_neg (mt answersTo_iff.mp hfor), ih]
      exact (and_iff_right fun m _ h => hfor h.1).symm

theorem forall_mem_given_iff {P : Json → Prop} :
    (∀ j ∈ f.toField.given members, P j) ↔ ∀ m ∈ members, f.IsFor m.1 → P m.2 := by
  simp only [Json.Field.given, List.forall_mem_map, List.mem_filter, answersTo_iff, and_imp]

theorem head?_given : (f.toField.given members).head? =
    (members.find? fun m => f.IsFor m.1).map (·.2) := by
  unfold Json.Field.given
  rw [List.head?_map, List.head?_filter]
  refine congrArg _ (congrArg (List.find? · members) (funext fun m => ?_))
  rw [Bool.eq_iff_iff, answersTo_iff, decide_eq_true_iff]

end BagField

/-! ## Bags -/

namespace Bag

/-- The documents of the values of the fields. -/
def written : (fields : List BagField) → Json.Values (fields.map BagField.toField) → List Json
  | [], () => []
  | f :: fields, (v, vs) => f.write v :: written fields vs

variable {fields : List BagField} {docs : List Json}

/-- Documents of the right types are those of some values. -/
theorem exists_written (h : List.Forall₂ (fun f j => f.type.Admits j) fields docs) :
    ∃ vs, written fields vs = docs := by
  induction h with
  | nil => exact ⟨(), rfl⟩
  | cons hj _ ih =>
    obtain ⟨v, rfl⟩ := BagField.admits_iff.mp hj
    obtain ⟨vs, rfl⟩ := ih
    exact ⟨(v, vs), rfl⟩

/-- The fields take their values from documents of the right types, at most one for each. -/
theorem takes_iff {given : Json.Field → List Json}
    {vs : Json.Values (fields.map BagField.toField)} :
    Json.Values.Takes given (fields.map BagField.toField) vs ↔
      (∀ f ∈ fields, (given f.toField).length ≤ 1 ∧ ∀ j ∈ given f.toField, f.type.Admits j) ∧
        written fields vs = fields.map fun f => (given f.toField).head?.getD f.type.zero := by
  induction fields with
  | nil => exact iff_of_true trivial ⟨nofun, rfl⟩
  | cons f fields ih =>
    obtain ⟨v, vs⟩ := vs
    show f.toField.Takes _ v ∧ Json.Values.Takes given (fields.map BagField.toField) vs ↔
      _ ∧ f.write v :: written fields vs = _
    rw [BagField.takes_iff, ih, List.forall_mem_cons, List.map_cons, List.cons_eq_cons,
      and_and_and_comm]

/-- Items are read into the fields at their places. -/
theorem readItems_eq_ok_iff {record : String} {size index : Nat} {items : List Json}
    {vs : Json.Values (fields.map BagField.toField)} :
    Json.readItems record size (fields.map BagField.toField) index items = .ok vs ↔
      (∀ p ∈ fields.zip items, p.1.type.Admits p.2) ∧
        written fields vs = fields.mapIdx fun i f => items[i]?.getD f.type.zero := by
  induction fields generalizing index items with
  | nil => exact iff_of_true rfl ⟨nofun, rfl⟩
  | cons f fields ih =>
    obtain ⟨v, vs⟩ := vs
    rw [List.mapIdx_cons]
    show _ ↔ _ ∧ f.write v :: written fields vs = _
    rw [List.cons_eq_cons]
    cases items with
    | nil =>
      refine Json.readItems_nil_eq_ok.trans ?_
      rw [BagField.default_eq_some_iff, ih, List.zip_nil_right, List.zip_nil_right]
      exact and_left_comm
    | cons j rest =>
      refine Json.readItems_cons_eq_ok.trans ?_
      rw [BagField.read_eq_ok_iff, ih, List.zip_cons_cons, List.forall_mem_cons]
      constructor
      · exact fun ⟨hv, hitems, hvs⟩ => ⟨⟨BagField.admits_iff.mpr ⟨v, hv⟩, hitems⟩, hv, hvs⟩
      · exact fun ⟨⟨_, hitems⟩, hv, hvs⟩ => ⟨hv, hitems, hvs⟩

theorem accepts_object_iff {members : List (String × Json)} :
    Accepts fields (.object members) ↔
      ∀ f ∈ fields, (members.Pairwise fun m m' => ¬ (f.IsFor m.1 ∧ f.IsFor m'.1)) ∧
        ∀ m ∈ members, f.IsFor m.1 → f.type.Admits m.2 := by
  constructor
  · rintro ⟨⟩ f hf
    rename_i hone htype
    exact ⟨hone f hf, htype f hf⟩
  · exact fun h => .object (fun f hf => (h f hf).1) fun f hf => (h f hf).2

theorem accepts_array_iff {items : List Json} :
    Accepts fields (.array items) ↔
      items.length ≤ fields.length ∧ ∀ p ∈ fields.zip items, p.1.type.Admits p.2 := by
  constructor
  · rintro ⟨⟩
    rename_i hlength htype
    exact ⟨hlength, htype⟩
  · exact fun h => .array h.1 h.2

/-- What a bag of the grammar gives for a field is of its type. -/
theorem Accepts.admits {bag : Json} (h : Accepts fields bag) :
    List.Forall₂ (fun f j => f.type.Admits j) fields (givenIn fields bag) := by
  cases h with
  | null =>
    exact List.forall₂_map_right_iff.mpr (List.forall₂_same.mpr fun f _ => f.type.admits_zero)
  | @object members _ htype =>
    refine List.forall₂_map_right_iff.mpr (List.forall₂_same.mpr fun f hf => ?_)
    cases hfind : members.find? fun m => f.IsFor m.1 with
    | none => exact f.type.admits_zero
    | some m =>
      have hfor := @List.find?_some _ (fun m => decide (f.IsFor m.1)) m members hfind
      exact htype f hf m (List.mem_of_find?_eq_some hfind) (of_decide_eq_true hfor)
  | @array items _ htype =>
    refine List.forall₂_iff_get.mpr ⟨List.length_mapIdx.symm, fun i hi _ => ?_⟩
    rw [List.get_eq_getElem, List.get_eq_getElem]
    simp only [givenIn, List.getElem_mapIdx]
    by_cases hitem : i < items.length
    · have hmem : (fields[i], items[i]) ∈ fields.zip items :=
        List.mem_iff_getElem.mpr ⟨i, by rw [List.length_zip]; omega, List.getElem_zip⟩
      rw [List.getElem?_eq_getElem hitem]
      exact htype _ hmem
    · rw [List.getElem?_eq_none (Nat.le_of_not_lt hitem)]
      exact fields[i].type.admits_zero

section Layouts

variable {α : Type} {record : String} {build : Json.Values (fields.map BagField.toField) → α}
  {bag : Json} {a : α}

/-- The layout of a record with the fields. -/
def layout (fields : List BagField) (record : String)
    (build : Json.Values (fields.map BagField.toField) → α) : Json.Layout α where
  name := record
  fields := fields.map BagField.toField
  build := build

/-- A record is read from the bags of the grammar, its values are the given ones; null is left to
the reader of bags. -/
theorem read_layout_eq_ok_iff (hfields : (fields.map BagField.toField).Pairwise Json.Field.Apart)
    (hbag : bag ≠ .null) :
    (layout fields record build).read bag = .ok a ↔
      Accepts fields bag ∧ ∃ vs, written fields vs = givenIn fields bag ∧ build vs = a := by
  have hregular : (layout fields record build).Regular := ⟨hfields, rfl⟩
  cases bag with
  | null => exact absurd rfl hbag
  | object members =>
    rw [Json.Layout.read_object_eq_ok_iff hregular, accepts_object_iff]
    show (∃ vs, Json.Values.Takes (·.given members) (fields.map BagField.toField) vs ∧ _) ↔ _
    simp only [takes_iff, BagField.length_given_le_one_iff, BagField.forall_mem_given_iff,
      BagField.head?_given, and_assoc, exists_and_left]
    rfl
  | array items =>
    have htakes (vs : Json.Values (fields.map BagField.toField)) :=
      (@Json.readItems_eq_ok_iff record 0 0 _ hfields items vs).symm.trans readItems_eq_ok_iff
    rw [Json.Layout.read_array_eq_ok_iff hregular, accepts_array_iff, and_assoc]
    refine and_congr ?_ ((exists_congr fun vs => and_congr_left' (htakes vs)).trans ?_)
    · rw [layout, List.length_map]
      exact or_iff_left Bool.false_ne_true
    · simp only [and_assoc, exists_and_left]
      rfl
  | bool | integer | decimal | text => exact ⟨nofun, fun h => nomatch h.1⟩

/-- Members that name no field are passed over, wherever they stand. -/
theorem put_of_unknown {name : String} {j : Json} (h : ∀ f ∈ fields, ¬ f.IsFor name)
    (slots : Json.Slots (fields.map BagField.toField)) :
    slots.put none name j (fields.map BagField.toField) = .ok slots := by
  induction fields with
  | nil => rfl
  | cons f fields ih =>
    obtain ⟨slot, slots⟩ := slots
    rw [List.forall_mem_cons] at h
    show Json.Slots.put none name j (f.toField :: fields.map BagField.toField) (slot, slots) = _
    rw [Json.Slots.put, if_neg (mt BagField.answersTo_iff.mp h.1), ih h.2]
    rfl

theorem readMembers_filter (slots : Json.Slots (fields.map BagField.toField))
    (members : List (String × Json)) :
    Json.readMembers none (fields.map BagField.toField) slots members =
      Json.readMembers none (fields.map BagField.toField) slots
        (members.filter fun m => ∃ f ∈ fields, f.IsFor m.1) := by
  induction members generalizing slots with
  | nil => rfl
  | cons m rest ih =>
    obtain ⟨name, j⟩ := m
    rw [List.filter_cons]
    by_cases hknown : ∃ f ∈ fields, f.IsFor name
    · rw [if_pos (decide_eq_true hknown), Json.readMembers, Json.readMembers]
      cases slots.put none name j (fields.map BagField.toField) with
      | ok slots => exact ih slots
      | error e => rfl
    · rw [if_neg (mt of_decide_eq_true hknown), Json.readMembers,
        put_of_unknown (fun f hf hfor => hknown ⟨f, hf, hfor⟩) slots]
      exact ih slots

theorem read_layout_filter (members : List (String × Json)) :
    (layout fields record build).read (.object members) = (layout fields record build).read
      (.object (members.filter fun m => ∃ f ∈ fields, f.IsFor m.1)) := by
  have hread := readMembers_filter (Json.Slots.empty (fields.map BagField.toField)) members
  rw [Json.Layout.read, Json.Layout.read]
  simp only [layout, Bool.false_eq_true, if_false]
  rw [hread]

/-- A bag other than null is read by the layout. -/
theorem readBag_of_ne_null {owner kind : String} {l : Json.Layout α} {unset : α}
    (h : bag ≠ .null) :
    NodeProperties.readBag owner kind l unset bag =
      (l.read bag).mapError (.properties owner kind) := by
  cases bag with
  | null => exact absurd rfl h
  | bool | integer | decimal | text | array | object => rfl

theorem mapError_eq_ok_iff {ε ε' : Type} {f : ε → ε'} {x : Except ε α} :
    x.mapError f = .ok a ↔ x = .ok a := by
  cases x with
  | error e => exact iff_of_false nofun nofun
  | ok a' => exact (Except.ok.injEq ..).to_iff.trans (Except.ok.injEq ..).to_iff.symm

/-- **Records with the fields are read by their grammar.** -/
theorem readByGrammar_readBag (hfields : (fields.map BagField.toField).Pairwise Json.Field.Apart)
    {documents : α → List Json} (hbuild : ∀ vs, documents (build vs) = written fields vs)
    {unset : α} (hunset : documents unset = fields.map (·.type.zero)) (owner kind : String) :
    ReadByGrammar fields owner kind documents
      (NodeProperties.readBag owner kind (layout fields record build) unset) where
  accepted bag := by
    by_cases hbag : bag = .null
    · subst hbag
      exact iff_of_true ⟨unset, rfl⟩ .null
    · simp only [readBag_of_ne_null hbag, mapError_eq_ok_iff, read_layout_eq_ok_iff hfields hbag]
      constructor
      · exact fun ⟨_, haccepts, _⟩ => haccepts
      · intro haccepts
        obtain ⟨vs, hvs⟩ := exists_written haccepts.admits
        exact ⟨build vs, haccepts, vs, hvs, rfl⟩
  given bag a h := by
    by_cases hbag : bag = .null
    · subst hbag
      obtain rfl := Except.ok.inj h
      exact hunset
    · rw [readBag_of_ne_null hbag, mapError_eq_ok_iff, read_layout_eq_ok_iff hfields hbag] at h
      obtain ⟨-, vs, hvs, rfl⟩ := h
      exact (hbuild vs).trans hvs
  refused bag e h := by
    by_cases hbag : bag = .null
    · subst hbag
      cases h
    · rw [readBag_of_ne_null hbag] at h
      cases hread : (layout fields record build).read bag with
      | ok a => rw [hread] at h; cases h
      | error cause => rw [hread] at h; exact ⟨cause, (Except.error.inj h).symm⟩
  unread members := congrArg (Except.mapError (FlowError.properties owner kind))
    (read_layout_filter members)

end Layouts

/-- A record that is put into another one is read by the same grammar. -/
theorem ReadByGrammar.map {α β : Type} {owner kind : String} {documents : β → List Json}
    {read : Json → Except FlowError α} {g : α → β}
    (h : ReadByGrammar fields owner kind (fun a => documents (g a)) read) :
    ReadByGrammar fields owner kind documents fun bag => (read bag).map g where
  accepted bag := by
    rw [← h.accepted bag]
    simp only [Json.map_eq_ok_iff]
    rw [exists_comm]
    simp only [exists_and_left, exists_eq', and_true]
  given bag b hb := by
    obtain ⟨a, ha, rfl⟩ := Json.map_eq_ok_iff.mp hb
    exact h.given bag a ha
  refused bag e he := by
    cases hread : read bag with
    | ok a => rw [hread] at he; cases he
    | error e' =>
      obtain ⟨cause, rfl⟩ := h.refused bag e' hread
      rw [hread] at he
      exact ⟨cause, (Except.error.inj he).symm⟩
  unread members := congrArg (Except.map g) (h.unread members)

end Bag

/-! ## Nodes and edges -/

namespace NodeProperties

theorem readByGrammar_ofBag (owner : String) (kind : NodeKind) :
    Bag.ReadByGrammar kind.bagFields owner kind.name documents (ofBag owner kind) := by
  cases kind with
  | start | finish | condition | parallel | inclusion | user | automation =>
    refine .map (Bag.readByGrammar_readBag ?apart ?build ?unset owner _)
    case apart => decide
    case build => exact fun _ => rfl
    case unset => rfl

theorem readByGrammar_ofBag_edge (owner : String) :
    Bag.ReadByGrammar edgeBagFields owner "edge" EdgeProperties.documents
      (EdgeProperties.ofBag owner) := by
  refine Bag.readByGrammar_readBag ?apart ?build ?unset owner _
  case apart => decide
  case build => exact fun _ => rfl
  case unset => rfl

/-- **Bags are read by the grammar of their kind.** Whoever owns it, a bag is read just if it is
null, an object that gives every field at most once, under one of its spellings and with a value of
its type, or an array of the first fields. The record is the one of the kind of the node, it has the
given values and zero values for the other fields, and members that name no field have no influence.
An error names the owner of the bag and the kind. -/
theorem bags_by_grammar :
    (∀ owner kind,
      Bag.ReadByGrammar kind.bagFields owner kind.name documents (ofBag owner kind) ∧
        ∀ bag p, ofBag owner kind bag = .ok p → p.Fits kind) ∧
      ∀ owner, Bag.ReadByGrammar edgeBagFields owner "edge" EdgeProperties.documents
        (EdgeProperties.ofBag owner) :=
  ⟨fun owner kind => ⟨readByGrammar_ofBag owner kind, fun _ _ h => fits_of_ofBag h⟩,
    readByGrammar_ofBag_edge⟩

/-- A bag of an approval step that gives a field under its other spelling, next to a member that
names no field. -/
theorem bags_by_grammar_user :
    ofBag "u" .user (.object [("isCc", .bool true), ("colour", .null)]) =
        .ok (.user { carbonCopy := true }) ∧
      (NodeProperties.user { carbonCopy := true }).Fits .user ∧
      Bag.Accepts NodeKind.user.bagFields (.object [("isCc", .bool true), ("colour", .null)]) :=
  have hread : ofBag "u" .user (.object [("isCc", .bool true), ("colour", .null)]) =
      .ok (.user { carbonCopy := true }) := rfl
  have ⟨hgrammar, hfits⟩ := bags_by_grammar.1 "u" .user
  ⟨hread, hfits _ _ hread, (hgrammar.accepted _).mp ⟨_, hread⟩⟩

end NodeProperties

end ApprovalFlow
