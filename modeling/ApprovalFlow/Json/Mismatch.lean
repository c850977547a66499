import ApprovalFlow.Json.Basic
import ApprovalFlow.Number.Shortest
import ApprovalFlow.Text.Quoted

/-!
# Mismatches

Why a document does not have the shape that was asked for.

- `Json.Seen`: what a message says was found.
- `Json.Expected`: what was asked for.
- `Json.Mismatch`: the causes.
- `Json.Mismatch.message`: their wording.
-/

namespace ApprovalFlow.Json

/-- What a message tells of a document: all of a document without parts, the sort of the others. -/
inductive Seen where
  | null
  | bool (value : Bool)
  | integer (value : Int)
  | decimal (value : Binary64)
  | text (value : String)
  | array
  | object
  deriving DecidableEq, Repr

/-- What a message tells of the document. -/
def seen : Json → Seen
  | .null => .null
  | .bool b => .bool b
  | .integer n => .integer n
  | .decimal x => .decimal x
  | .text s => .text s
  | .array _ => .array
  | .object _ => .object

namespace Seen

/-- A name between backquotes. -/
def ticked (s : String) : String := "\x60" ++ s ++ "\x60"

/-- How messages call it. -/
def describe : Seen → String
  | .null => "null"
  | .bool b => "boolean " ++ ticked (if b then "true" else "false")
  | .integer n => "integer " ++ ticked (toString n)
  | .decimal x => "floating point " ++ ticked x.text
  | .text s => "string " ++ Text.quoted s
  | .array => "sequence"
  | .object => "map"

end Seen

/-- What a reader asks for. -/
inductive Expected where
  | text
  | bool
  | array
  | object
  | nothing
  /-- a whole number below `2 ^ 8` -/
  | byte
  /-- a whole number below `2 ^ 64` -/
  | size
  /-- a choice among names -/
  | choice
  /-- an object with one member -/
  | singleMember
  /-- a record, by its name -/
  | record (name : String)
  deriving DecidableEq, Repr

/-- How messages call it. -/
def Expected.describe : Expected → String
  | .text => "a string"
  | .bool => "a boolean"
  | .array => "a sequence"
  | .object => "a map"
  | .nothing => "unit"
  | .byte => "u8"
  | .size => "usize"
  | .choice => "string or map"
  | .singleMember => "map with a single key"
  | .record name => "struct " ++ name

/-- Why a document does not have the shape that was asked for. -/
inductive Mismatch where
  /-- a document of another sort -/
  | wrongType (found : Seen) (expected : Expected)
  /-- a document of the right sort but not of the right value -/
  | wrongValue (found : Seen) (expected : Expected)
  /-- a record without a field that it must have -/
  | missingField (name : String)
  /-- a record with a field given twice -/
  | duplicateField (name : String)
  /-- a record with a field that it does not know -/
  | unknownField (name : String) (known : List String)
  /-- a choice that is not offered -/
  | unknownChoice (name : String) (offered : List String)
  /-- an array that ends before the field at `index`, which the record must have -/
  | tooShort (index : Nat) (record : String) (fields : Nat)
  /-- an array with more items than the record has fields -/
  | tooLong (length : Nat)
  /-- a number that stands for no task status -/
  | unknownTaskStatus (code : Nat)
  /-- a number that stands for no join policy -/
  | unknownJoinPolicy (code : Nat)
  deriving DecidableEq, Repr

namespace Mismatch

/-- Names that may stand at a place: two of them with `or`, more as a list. -/
def oneOf : List String → String
  | [] => "there are no fields"
  | [a] => "expected " ++ Seen.ticked a
  | [a, b] => "expected " ++ Seen.ticked a ++ " or " ++ Seen.ticked b
  | names => "expected one of " ++ ", ".intercalate (names.map Seen.ticked)

/-- The wording of a mismatch. A record given as an array is read from its start, so in a document
that is read from a text an array that is too long shows as something that follows its end. -/
def message (fromText : Bool) : Mismatch → String
  | .wrongType found expected =>
    "invalid type: " ++ found.describe ++ ", expected " ++ expected.describe
  | .wrongValue found expected =>
    "invalid value: " ++ found.describe ++ ", expected " ++ expected.describe
  | .missingField name => "missing field " ++ Seen.ticked name
  | .duplicateField name => "duplicate field " ++ Seen.ticked name
  | .unknownField name known => "unknown field " ++ Seen.ticked name ++ ", " ++ oneOf known
  | .unknownChoice name offered =>
    "unknown variant " ++ Seen.ticked name ++ ", " ++ oneOf offered
  | .tooShort index record fields =>
    "invalid length " ++ toString index ++ ", expected struct " ++ record ++ " with "
      ++ toString fields ++ (if fields = 1 then " element" else " elements")
  | .tooLong length =>
    if fromText then "trailing characters"
    else "invalid length " ++ toString length ++ ", expected fewer elements in array"
  | .unknownTaskStatus code => "unknown task status code " ++ toString code
  | .unknownJoinPolicy code => "unknown gateway join policy code " ++ toString code

end Mismatch

end ApprovalFlow.Json
