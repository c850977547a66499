import ApprovalFlow.Json.Basic

/-!
# Tables in settings files

A table comes about in one of three ways, and the way decides what may be added to it later.

- `Toml.Origin`: how a table came about.
- `Toml.Item`: a value, or a table that is still open.
- `Toml.Table`: a table with its members.
- `Toml.Table.declare?`: a table by its own header.
- `Toml.Table.assign?`: a value under a key, or under a key with dots.
- `Toml.Table.toJson`: the table as a document.
-/

namespace ApprovalFlow.Toml

/-- How a table came about. -/
inductive Origin where
  /-- by the header of a table inside it -/
  | implied
  /-- by a header of its own; so does the whole file, and a table in braces -/
  | header
  /-- by a key with dots -/
  | dotted
  deriving DecidableEq, Repr

/-- What stands under a key. -/
inductive Item where
  | value (j : Json)
  | table (origin : Origin) (members : List (String × Item))

/-- A table with its members, in the order in which they came. -/
structure Table where
  origin : Origin
  members : List (String × Item)

namespace Table

/-- A file or a table in braces, before anything is in it. -/
def empty : Table := ⟨.header, []⟩

/-- What stands under a key. -/
def find? (t : Table) (key : String) : Option Item :=
  (t.members.find? fun m => m.1 == key).map (·.2)

/-- Put an item under a key, in place of what is there. -/
def set (t : Table) (key : String) (item : Item) : Table :=
  if (t.find? key).isSome then
    { t with members := t.members.map fun m => if m.1 == key then (key, item) else m }
  else { t with members := t.members ++ [(key, item)] }

/-- Change the table that a path of keys leads to; missing tables on the way come about. Keys with
dots do not lead into a table that has a header. -/
def alter? (dotted : Bool) (f : Table → Option Table) : List String → Table → Option Table
  | [], t => f t
  | key :: path, t =>
    match t.find? key with
    | none =>
      (alter? dotted f path ⟨if dotted then .dotted else .implied, []⟩).map fun u =>
        t.set key (.table u.origin u.members)
    | some (.value _) => none
    | some (.table origin members) =>
      if dotted && origin == .header then none
      else
        (alter? dotted f path ⟨origin, members⟩).map fun u =>
          t.set key (.table u.origin u.members)

/-- A header for the table under a path and a key. Each table has one header at most, and a table
that came about by a key with dots has none. -/
def declare? (path : List String) (key : String) (t : Table) : Option Table :=
  t.alter? false (fun u =>
    match u.find? key with
    | none => some (u.set key (.table .header []))
    | some (.table .implied members) => some (u.set key (.table .header members))
    | _ => none) path

/-- A value under a key, in the table that the path of a key with dots leads to. No key is given
twice, and keys with dots add only to tables that came about by such keys. -/
def assign? (path : List String) (key : String) (j : Json) (t : Table) : Option Table :=
  t.alter? true (fun u =>
    if (u.origin == .dotted) == path.isEmpty || (u.find? key).isSome then none
    else some (u.set key (.value j))) path

end Table

mutual

/-- An item as a document. -/
def Item.toJson : Item → Json
  | .value j => j
  | .table _ members => .object (Item.membersToJson members)

/-- The members of a table as those of a document. -/
def Item.membersToJson : List (String × Item) → List (String × Json)
  | [] => []
  | (key, item) :: rest => (key, item.toJson) :: Item.membersToJson rest

end

/-- The table as a document. -/
def Table.toJson (t : Table) : Json := .object (Item.membersToJson t.members)

end ApprovalFlow.Toml
