/-!
# Scopes

Which parts of a document are read. What lies outside must be well formed only: there, brackets may
be nested to any depth, and numbers and texts need not be ones that a document can hold.

- `Json.Scope`: the parts that are read.
- `Json.Scope.member`, `Json.Scope.item`: what is read of a part.
-/

namespace ApprovalFlow.Json

/-- Which parts of a document are read. -/
inductive Scope where
  /-- all of it -/
  | whole
  /-- nothing of it -/
  | nothing
  /-- of an array, these parts of each item -/
  | list (item : Scope)
  /-- of a record, these parts of its fields, in their declared order -/
  | record (fields : List (String × Scope))

namespace Scope

/-- Is no part read? -/
def isNothing : Scope → Bool
  | .nothing => true
  | .whole | .list _ | .record _ => false

/-- What is read of the member of an object. -/
def member (name : String) : Scope → Scope
  | .whole => .whole
  | .record fields => ((fields.find? fun f => f.1 == name).map (·.2)).getD .nothing
  | .nothing | .list _ => .nothing

/-- What is read of the item of an array. -/
def item (index : Nat) : Scope → Scope
  | .whole => .whole
  | .list item => item
  | .record fields => (fields[index]?.map (·.2)).getD .nothing
  | .nothing => .nothing

end Scope

end ApprovalFlow.Json
