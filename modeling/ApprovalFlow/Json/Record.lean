import ApprovalFlow.Json.Mismatch

/-!
# Records

A record can be given as an object, in any order of its fields, or as an array of its fields in
their declared order. The description of a record is data, so that the rules of reading are stated
once for all records.

- `Json.Field`: a field with its names, the reader of its value and its default.
- `Json.Slots`, `Json.Values`: the fields given so far, and the values of all fields.
- `Json.readMembers`, `Json.readItems`: the two forms.
- `Json.Layout`: a record, and `Json.Layout.read` its reader.
- `Json.readText`, `Json.readBool`, `Json.readList`, …: readers for field values.
-/

namespace ApprovalFlow.Json

/-- A field of a record. -/
structure Field where
  /-- The name of the field, by which messages call it. -/
  name : String
  /-- Other names under which it may be given. -/
  aliases : List String := []
  /-- What its values are. -/
  Value : Type
  /-- How a value is read. -/
  read : Json → Except Mismatch Value
  /-- The value if the field is not given; a field without one must be given. -/
  default : Option Value

namespace Field

/-- May the field be given under the name? -/
def answersTo (f : Field) (name : String) : Bool := f.name == name || f.aliases.contains name

end Field

/-- The fields of a record that have been given so far. -/
@[reducible] def Slots : List Field → Type
  | [] => Unit
  | f :: fs => Option f.Value × Slots fs

/-- A value for every field of a record. -/
@[reducible] def Values : List Field → Type
  | [] => Unit
  | f :: fs => f.Value × Values fs

/-! ## Records given as objects -/

/-- No field given. -/
def Slots.empty : (fs : List Field) → Slots fs
  | [] => ()
  | _ :: fs => (none, Slots.empty fs)

/-- Take a member of the object: read it into the field that it names. A field given twice is
refused before its value is looked at. A name of no field is refused if `strict` names the record's
fields, and passed over otherwise. -/
def Slots.put (strict : Option (List String)) (name : String) (j : Json) :
    (fs : List Field) → Slots fs → Except Mismatch (Slots fs)
  | [], () =>
    match strict with
    | some known => .error (.unknownField name known)
    | none => .ok ()
  | f :: fs, (slot, slots) =>
    if f.answersTo name then
      if slot.isSome then .error (.duplicateField f.name)
      else (f.read j).map fun v => (some v, slots)
    else (Slots.put strict name j fs slots).map fun slots => (slot, slots)

/-- The values of all fields: the given ones, and the defaults of the others. The first field that
has neither is reported. -/
def Slots.fill : (fs : List Field) → Slots fs → Except Mismatch (Values fs)
  | [], () => .ok ()
  | f :: fs, (slot, slots) =>
    match slot.or f.default with
    | some v => (Slots.fill fs slots).map fun vs => (v, vs)
    | none => .error (.missingField f.name)

/-- Read the members of an object, one after the other. -/
def readMembers (strict : Option (List String)) (fs : List Field) (slots : Slots fs) :
    List (String × Json) → Except Mismatch (Slots fs)
  | [] => .ok slots
  | (name, j) :: rest =>
    match slots.put strict name j fs with
    | .ok slots => readMembers strict fs slots rest
    | .error e => .error e

/-! ## Records given as arrays -/

/-- Read the items of an array into the fields, from the field at `index` of the record on. Fields
past the end of the array take their defaults; items past the last field are left. -/
def readItems (record : String) (size : Nat) :
    (fs : List Field) → (index : Nat) → List Json → Except Mismatch (Values fs)
  | [], _, _ => .ok ()
  | f :: fs, index, [] =>
    match f.default with
    | some v => (readItems record size fs (index + 1) []).map fun vs => (v, vs)
    | none => .error (.tooShort index record size)
  | f :: fs, index, j :: rest =>
    match f.read j with
    | .ok v => (readItems record size fs (index + 1) rest).map fun vs => (v, vs)
    | .error e => .error e

/-! ## Layouts -/

/-- The description of the records that are read into `α`. -/
structure Layout (α : Type) where
  /-- The record's name, by which messages call it. -/
  name : String
  /-- The fields in their declared order. -/
  fields : List Field
  /-- Is a member that names no field refused? -/
  strict : Bool := false
  /-- Is an array with more items than fields read by its first items? -/
  lenient : Bool := false
  /-- The record of its fields' values. -/
  build : Values fields → α

namespace Layout

variable {α : Type}

/-- Read a record from an object or an array. -/
def read (l : Layout α) : Json → Except Mismatch α
  | .object members =>
    match readMembers (if l.strict then some (l.fields.map (·.name)) else none) l.fields
        (Slots.empty l.fields) members with
    | .ok slots => (slots.fill l.fields).map l.build
    | .error e => .error e
  | .array items =>
    match readItems l.name l.fields.length l.fields 0 items with
    | .ok values =>
      if l.fields.length < items.length ∧ !l.lenient then .error (.tooLong items.length)
      else .ok (l.build values)
    | .error e => .error e
  | j => .error (.wrongType j.seen (.record l.name))

end Layout

/-! ## Readers of field values -/

/-- A text. -/
def readText : Json → Except Mismatch String
  | .text s => .ok s
  | j => .error (.wrongType j.seen .text)

/-- A truth value. -/
def readBool : Json → Except Mismatch Bool
  | .bool b => .ok b
  | j => .error (.wrongType j.seen .bool)

/-- Any document, in its canonical form. -/
def readAny (j : Json) : Except Mismatch Json := .ok j.canonical

/-- The items of an array, by a reader for one item. -/
def readEach {α : Type} (read : Json → Except Mismatch α) : List Json → Except Mismatch (List α)
  | [] => .ok []
  | j :: rest =>
    match read j with
    | .ok a => (readEach read rest).map (a :: ·)
    | .error e => .error e

/-- An array, by a reader for one item. -/
def readList {α : Type} (read : Json → Except Mismatch α) : Json → Except Mismatch (List α)
  | .array items => readEach read items
  | j => .error (.wrongType j.seen .array)

/-- The members of an object, by a reader for one member's value. -/
def readEachMember {α : Type} (read : Json → Except Mismatch α) :
    List (String × Json) → Except Mismatch (List (String × α))
  | [] => .ok []
  | (name, j) :: rest =>
    match read j with
    | .ok a => (readEachMember read rest).map ((name, a) :: ·)
    | .error e => .error e

/-- An object, by a reader for one member's value; of members with one name the last counts. -/
def readMap {α : Type} (read : Json → Except Mismatch α) :
    Json → Except Mismatch (SortedMap String α)
  | .object members => (readEachMember read members).map SortedMap.ofList
  | j => .error (.wrongType j.seen .object)

/-- Null, or what the reader takes. -/
def readOptional {α : Type} (read : Json → Except Mismatch α) : Json → Except Mismatch (Option α)
  | .null => .ok none
  | j => (read j).map some

/-- A whole number from zero up to but not including `bound`. -/
def readBelow (bound : Nat) (expected : Expected) : Json → Except Mismatch Nat
  | .integer n =>
    if 0 ≤ n ∧ n < bound then .ok n.toNat
    else .error (.wrongValue (.integer n) expected)
  | j => .error (.wrongType j.seen expected)

/-- A whole number below `2 ^ 8`. -/
def readByte : Json → Except Mismatch Nat := readBelow (Nat.pow 2 8) .byte

/-- A whole number below `2 ^ 64`. -/
def readSize : Json → Except Mismatch Nat := readBelow (Nat.pow 2 64) .size

/-- The value that a name stands for, of those on offer. -/
def choose {α : Type} (offered : List (String × α)) (name : String) : Except Mismatch α :=
  match offered.find? fun o => o.1 == name with
  | some o => .ok o.2
  | none => .error (.unknownChoice name (offered.map (·.1)))

/-- Null: what a choice given as an object carries. -/
def readNothing : Json → Except Mismatch Unit
  | .null => .ok ()
  | j => .error (.wrongType j.seen .nothing)

/-- A choice, as its name or as an object whose one member is named so; `payload` reads what the
member carries. -/
def readChoice {α : Type} (offered : List (String × α)) (payload : Json → Except Mismatch Unit) :
    Json → Except Mismatch α
  | .text name => choose offered name
  | .object [(name, j)] =>
    match choose offered name with
    | .ok a => (payload j).map fun _ => a
    | .error e => .error e
  | .object _ => .error (.wrongValue .object .singleMember)
  | j => .error (.wrongType j.seen .choice)

/-! ## Fields -/

/-- A text that must be given. -/
@[reducible] def textField (name : String) : Field := ⟨name, [], String, readText, none⟩

/-- A text that is empty if it is not given. -/
@[reducible] def optionalText (name : String) (aliases : List String := []) : Field :=
  ⟨name, aliases, String, readText, some ""⟩

/-- A truth value that is false if it is not given. -/
@[reducible] def optionalBool (name : String) (aliases : List String := []) : Field :=
  ⟨name, aliases, Bool, readBool, some false⟩

/-- A list of texts that is empty if it is not given. -/
@[reducible] def optionalTexts (name : String) : Field :=
  ⟨name, [], List String, readList readText, some []⟩

end ApprovalFlow.Json
