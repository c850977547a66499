import ApprovalFlow.Number.Binary64
import ApprovalFlow.SortedMap

/-!
# Documents

The values that diagrams, definitions, tasks and settings are exchanged as. An object keeps its
members in the order they were written in, repeated names included; the *canonical* form of a
document has the members of every object in ascending order of names, the last of a name only.

- `Json`: a document.
- `Json.canonical`: the canonical form.
- `Json.member?`: the member of an object with a name.
-/

namespace ApprovalFlow

/-- A document. Whole numbers and decimals are apart: `1` and `1.0` are different documents. -/
inductive Json where
  | null
  | bool (value : Bool)
  | integer (value : Int)
  | decimal (value : Binary64)
  | text (value : String)
  | array (items : List Json)
  | object (members : List (String × Json))

namespace Json

instance : Inhabited Json := ⟨.null⟩

mutual

/-- The document with the members of every object sorted by name, the last of a name only. -/
def canonical : Json → Json
  | .array items => .array (canonicalItems items)
  | .object members => .object (SortedMap.ofList (canonicalMembers members)).entries
  | .null => .null
  | .bool b => .bool b
  | .integer n => .integer n
  | .decimal x => .decimal x
  | .text s => .text s

/-- The canonical form of each item. -/
def canonicalItems : List Json → List Json
  | [] => []
  | j :: rest => j.canonical :: canonicalItems rest

/-- The canonical form of each member's value. -/
def canonicalMembers : List (String × Json) → List (String × Json)
  | [] => []
  | (name, j) :: rest => (name, j.canonical) :: canonicalMembers rest

end

/-- The first member of an object with the name; nothing for other documents. -/
def member? (name : String) : Json → Option Json
  | .object members => (members.find? fun m => m.1 == name).map (·.2)
  | _ => none

/-- The document of an optional value. -/
def ofOption {α : Type} (write : α → Json) : Option α → Json
  | some a => write a
  | none => .null

/-- The array of a list's documents. -/
def ofList {α : Type} (write : α → Json) (l : List α) : Json := .array (l.map write)

/-- The array of a list of texts. -/
def texts (l : List String) : Json := ofList .text l

end Json

end ApprovalFlow
